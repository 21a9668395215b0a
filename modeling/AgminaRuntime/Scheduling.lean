import AgminaRuntime.Config
import Mathlib.Data.List.Lex
import Mathlib.Data.List.Sort
import Mathlib.Data.Prod.Lex
import Mathlib.Data.String.Basic

/-!
# Nonpreemptive request dispatch

The three rankings and the choice of an endpoint.  FIFO, EDF and slack share
the freshness and admission rules; a service profile is the operator's
estimate, never the future service time.
-/

namespace AgminaRuntime

/-- A Python sort key: integers compared lexicographically, then an
identifier. -/
structure RankKey where
  numbers : List Int
  id : Name
  deriving DecidableEq

/-- Tuple comparison `first < second`. -/
def RankKey.before (first second : RankKey) : Bool :=
  decide (first.numbers < second.numbers) ||
    (first.numbers = second.numbers && decide (first.id.text < second.id.text))

structure Candidate where
  id : Name
  submittedNs : Ns
  latestNs : Int
  estimateNs : Nat
  priority : Fin 4
  deriving DecidableEq

/-- `rank(job, now_ns, mode)`. -/
def rank (job : Candidate) (nowNs : Int) : Scheduler → RankKey
  | .fifo => ⟨[job.submittedNs.val], job.id⟩
  | .edf => ⟨[job.latestNs, job.submittedNs.val], job.id⟩
  -- urgency first; aging is a tie-break, not an asserted starvation guarantee
  | .slack =>
      ⟨[job.latestNs - nowNs - job.estimateNs, job.priority.val, job.submittedNs.val], job.id⟩

/-- `sorted(ready, key=lambda x: x[0])`, which is stable. -/
def sortByRank {α : Type} (ready : List (RankKey × α)) : List (RankKey × α) :=
  ready.insertionSort fun first second => ¬ second.1.before first.1

/-- The first item whose key no other item's key precedes. -/
def minByKey {α : Type} (key : α → RankKey) : List α → Option α
  | [] => none
  | first :: rest =>
      some (rest.foldl (fun best item => if (key item).before (key best) then item else best)
        first)

def placementKey (endpoint : Endpoint) : Placement → RankKey
  | .cheapestFeasible => ⟨[endpoint.reserveMicrousd.val, endpoint.estimateNs], endpoint.id⟩
  | .fastest => ⟨[endpoint.estimateNs, endpoint.reserveMicrousd.val], endpoint.id⟩

/-- One endpoint passes the site, quarantine, capacity and time checks. -/
def feasible (endpoint : Endpoint) (nowNs : Ns) (latestNs : Int) (siteAllowlist : List Name)
    (poolSlots : Name → Nat) (poolUse endpointUse : Name → Int) (quarantined : List Name) :
    Bool :=
  if endpoint.site ∉ siteAllowlist ∨ endpoint.pool ∈ quarantined then false
  else if (poolSlots endpoint.pool : Int) ≤ poolUse endpoint.pool ∨
      (endpoint.maxInflight : Int) ≤ endpointUse endpoint.id then false
  else if latestNs ≤ nowNs.val + endpoint.estimateNs then false
  else true

/-- `choose_endpoint`. -/
def chooseEndpoint (endpoints : List Endpoint) (nowNs : Ns) (latestNs : Int)
    (siteAllowlist : List Name) (poolSlots : Name → Nat) (poolUse endpointUse : Name → Int)
    (quarantined : List Name) (placement : Placement) : Option Endpoint :=
  minByKey (placementKey · placement)
    (endpoints.filter fun endpoint =>
      feasible endpoint nowNs latestNs siteAllowlist poolSlots poolUse endpointUse quarantined)

/-- Python compares the keys lexicographically, which is a linear order. -/
instance : LinearOrder RankKey :=
  LinearOrder.lift' (fun key => toLex (key.numbers, key.id.text)) fun first second same => by
    obtain ⟨numbers, text⟩ := Prod.ext_iff.mp (toLex.injective same)
    cases first
    cases second
    cases numbers
    cases Name.eq_of_text text
    rfl

theorem RankKey.before_iff {first second : RankKey} :
    first.before second = true ↔ first < second := by
  change _ ↔ toLex (first.numbers, first.id.text) < toLex (second.numbers, second.id.text)
  rw [Prod.Lex.toLex_lt_toLex]
  simp [RankKey.before]

/-- A rank carries the identifier of its candidate, so it never ties. -/
theorem rank_id (job : Candidate) (nowNs : Int) (mode : Scheduler) :
    (rank job nowNs mode).id = job.id := by
  cases mode <;> rfl

section Sorting

variable {α : Type} (ready : List (RankKey × α))

theorem sortByRank_perm : (sortByRank ready).Perm ready := List.perm_insertionSort _ _

theorem sortByRank_sorted :
    (sortByRank ready).Pairwise fun first second => first.1 ≤ second.1 := by
  have total : Std.Total fun first second : RankKey × α => ¬ second.1.before first.1 :=
    ⟨fun first second => by
      simp only [RankKey.before_iff, not_lt]
      exact le_total _ _⟩
  have trans : IsTrans (RankKey × α) fun first second => ¬ second.1.before first.1 :=
    ⟨fun first second third => by
      simp only [RankKey.before_iff, not_lt]
      exact le_trans⟩
  apply (List.pairwise_insertionSort _ ready).imp
  intro first second ordered
  rwa [RankKey.before_iff, not_lt] at ordered

end Sorting

theorem minByKey_mem {α : Type} {key : α → RankKey} {items : List α} {least : α}
    (chosen : minByKey key items = some least) : least ∈ items := by
  cases items with
  | nil => simp [minByKey] at chosen
  | cons first rest =>
      simp only [minByKey, Option.some.injEq] at chosen
      subst chosen
      induction rest generalizing first with
      | nil => simp
      | cons item rest ih =>
          rw [List.foldl_cons]
          have member := ih (if (key item).before (key first) then item else first)
          rcases List.mem_cons.mp member with same | later
          · rw [same]
            split <;> simp
          · simp [later]

section Choice

variable {endpoint : Endpoint} {endpoints : List Endpoint} {nowNs : Ns} {latestNs : Int}
  {siteAllowlist : List Name} {poolSlots : Name → Nat} {poolUse endpointUse : Name → Int}
  {quarantined : List Name} {placement : Placement}

theorem feasible_iff :
    feasible endpoint nowNs latestNs siteAllowlist poolSlots poolUse endpointUse quarantined = true ↔
      endpoint.site ∈ siteAllowlist ∧ endpoint.pool ∉ quarantined ∧
        poolUse endpoint.pool < poolSlots endpoint.pool ∧
          endpointUse endpoint.id < endpoint.maxInflight ∧
            (nowNs.val : Int) + endpoint.estimateNs < latestNs := by
  unfold feasible
  split
  · rename_i outside
    simp only [Bool.false_eq_true, false_iff]
    rintro ⟨site, pool, -⟩
    exact outside.elim (fun absent => absent site) pool
  · rename_i inside
    simp only [not_or, not_not] at inside
    simp only [inside.1, inside.2, not_false_eq_true, true_and]
    split
    · simp only [Bool.false_eq_true, false_iff]
      omega
    · split
      · simp only [Bool.false_eq_true, false_iff]
        omega
      · simp only [true_iff]
        omega

/-- What an endpoint that was chosen has been checked for. -/
theorem chooseEndpoint_spec
    (chosen : chooseEndpoint endpoints nowNs latestNs siteAllowlist poolSlots poolUse
      endpointUse quarantined placement = some endpoint) :
    endpoint ∈ endpoints ∧ endpoint.site ∈ siteAllowlist ∧ endpoint.pool ∉ quarantined ∧
      poolUse endpoint.pool < poolSlots endpoint.pool ∧
        endpointUse endpoint.id < endpoint.maxInflight ∧
          (nowNs.val : Int) + endpoint.estimateNs < latestNs := by
  have member := minByKey_mem chosen
  rw [List.mem_filter, feasible_iff] at member
  exact member

/-- When no endpoint is chosen, none passes the checks. -/
theorem chooseEndpoint_none
    (absent : chooseEndpoint endpoints nowNs latestNs siteAllowlist poolSlots poolUse
      endpointUse quarantined placement = none) (member : endpoint ∈ endpoints) :
    feasible endpoint nowNs latestNs siteAllowlist poolSlots poolUse endpointUse quarantined =
      false := by
  unfold chooseEndpoint at absent
  generalize listEq : endpoints.filter _ = passing at absent
  cases passing with
  | nil =>
      rw [List.filter_eq_nil_iff] at listEq
      simpa using listEq endpoint member
  | cons first rest => simp [minByKey] at absent

/-- An endpoint that fails the checks fails them later and under more load. -/
theorem feasible_antitone {laterNs : Ns} {morePool moreEndpoint : Name → Int}
    (later : nowNs ≤ laterNs) (pool : ∀ name, poolUse name ≤ morePool name)
    (use : ∀ name, endpointUse name ≤ moreEndpoint name)
    (fails : feasible endpoint nowNs latestNs siteAllowlist poolSlots poolUse endpointUse
      quarantined = false) :
    feasible endpoint laterNs latestNs siteAllowlist poolSlots morePool moreEndpoint quarantined =
      false := by
  rw [Bool.eq_false_iff, Ne, feasible_iff] at fails ⊢
  rintro ⟨site, free, slots, inflight, inTime⟩
  apply fails
  have poolBound := pool endpoint.pool
  have useBound := use endpoint.id
  have nowBound : nowNs.val ≤ laterNs.val := later
  exact ⟨site, free, by omega, by omega, by omega⟩

end Choice

end AgminaRuntime
