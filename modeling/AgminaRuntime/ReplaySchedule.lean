import AgminaRuntime.GreedySchedule
import AgminaRuntime.Replay

/-!
# A replay follows the greedy schedule

The requests of a trace are a demand on its slots.  The loop of a replay
visits only the instants of releases, completions and expiries, and what it
has started after each of them is what the greedy schedule starts at every
instant up to then.
-/

namespace AgminaRuntime

open Greedy

namespace Trace

variable (trace : Trace) (mode : Scheduler)

def request? (id : Name) : Option ReplayRequest :=
  trace.requests.find? fun request => request.id = id

/-- A reading of the request with a given identifier. -/
def reading (read : ReplayRequest → Nat) (id : Name) : Nat :=
  ((trace.request? id).map read).getD 0

variable {trace}

theorem request?_of_mem {request : ReplayRequest} (member : request ∈ trace.requests) :
    trace.request? request.id = some request := by
  unfold request?
  cases found : trace.requests.find? fun other => decide (other.id = request.id) with
  | none =>
      have absent := List.find?_eq_none.mp found request member
      simp at absent
  | some other =>
      have same := List.find?_some found
      rw [decide_eq_true_eq] at same
      rw [List.inj_on_of_nodup_map trace.unique (List.mem_of_find?_eq_some found) member same]

theorem reading_of_mem {request : ReplayRequest} (read : ReplayRequest → Nat)
    (member : request ∈ trace.requests) : trace.reading read request.id = read request := by
  simp [reading, request?_of_mem member]

theorem eq_of_id {first second : ReplayRequest} (firstMember : first ∈ trace.requests)
    (secondMember : second ∈ trace.requests) (same : first.id = second.id) : first = second :=
  List.inj_on_of_nodup_map trace.unique firstMember secondMember same

variable (trace)

def rankAt (now : Nat) (id : Name) : RankKey :=
  match trace.request? id with
  | some request => rank request.candidate now mode
  | none => ⟨[], id⟩

/-- The requests of a trace as work items: identified by name, estimated by
their profile, and ranked by the policy. -/
def work : Demand Name RankKey where
  items := trace.requests.map (·.id)
  distinct := trace.unique
  slots := trace.slots
  release := trace.reading (·.releaseNs.val)
  latest := trace.reading (·.latestNs)
  estimate := trace.reading (·.profileNs.val)
  service := trace.reading (·.serviceNs.val)
  positive := by
    intro id member
    obtain ⟨request, known, rfl⟩ := List.mem_map.mp member
    rw [reading_of_mem _ known]
    exact Nat.pos_of_ne_zero request.lasting
  rank := trace.rankAt mode
  rankInjective := by
    intro now first firstMember second secondMember same
    obtain ⟨one, oneKnown, rfl⟩ := List.mem_map.mp firstMember
    obtain ⟨two, twoKnown, rfl⟩ := List.mem_map.mp secondMember
    simp only [rankAt, request?_of_mem oneKnown, request?_of_mem twoKnown] at same
    have ids := congrArg RankKey.id same
    rw [rank_id, rank_id] at ids
    exact ids

variable {trace}

theorem ordered_perm : trace.ordered.Perm trace.requests := by
  have perm := (sortByRank_perm (trace.requests.map fun request =>
    ((⟨[request.releaseNs.val], request.id⟩ : RankKey), request))).map (·.2)
  rw [List.map_map] at perm
  exact perm.trans (List.Perm.of_eq (List.map_id _))

theorem mem_ordered {request : ReplayRequest} :
    request ∈ trace.ordered ↔ request ∈ trace.requests := ordered_perm.mem_iff

theorem ordered_nodup : trace.ordered.Nodup :=
  ordered_perm.nodup_iff.mpr (List.Nodup.of_map _ trace.unique)

theorem ordered_ids_nodup : (trace.ordered.map (·.id)).Nodup :=
  (ordered_perm.map _).nodup_iff.mpr trace.unique

/-- The cursor meets the releases in the order of time. -/
theorem ordered_sorted (trace : Trace) :
    trace.ordered.Pairwise fun first second => first.releaseNs.val ≤ second.releaseNs.val := by
  have keyed : ∀ pair ∈ sortByRank (trace.requests.map fun request =>
      ((⟨[request.releaseNs.val], request.id⟩ : RankKey), request)),
      pair.1 = ⟨[pair.2.releaseNs.val], pair.2.id⟩ := by
    intro pair member
    obtain ⟨request, _, rfl⟩ := List.mem_map.mp ((sortByRank_perm _).mem_iff.mp member)
    rfl
  apply List.pairwise_map.mpr
  apply (sortByRank_sorted _).imp_of_mem
  intro first second firstMember secondMember order
  by_contra later
  rw [keyed first firstMember, keyed second secondMember, ← not_lt] at order
  apply order
  rw [← RankKey.before_iff]
  have below : [(second.2.releaseNs.val : Int)] < [(first.2.releaseNs.val : Int)] :=
    List.Lex.rel (by omega)
  simp only [RankKey.before, below, decide_true, Bool.true_or]

end Trace

/-- The instant at which a request expires that is never started. -/
def ReplayRequest.expiryNs (request : ReplayRequest) : Nat :=
  max request.releaseNs.val request.latestNs

/-- The row of a released request, given the starts, when the expiries before
one instant and the completions before another have been recorded. -/
def ReplayRequest.recordAt (start : Starts Name) (expired finished : Nat)
    (request : ReplayRequest) : ReplayRecord :=
  match start request.id with
  | none => if request.expiryNs < expired then request.row.expire else request.row
  | some began =>
      if began + request.serviceNs.val < finished then
        (request.row.start began).complete (began + request.serviceNs.val)
      else request.row.start began

/-- The heap entry of a request that is not known to be complete. -/
def ReplayRequest.entryAt (start : Starts Name) (finished : Nat) (request : ReplayRequest) :
    Option ActiveEntry :=
  match start request.id with
  | none => none
  | some began =>
      if finished ≤ began + request.serviceNs.val then
        some (began + request.serviceNs.val, request.id)
      else none

/-- The variables of the loop as they follow from the starts that were made,
when the releases, expiries and completions before three given instants have
been processed. -/
structure Tracks (trace : Trace) (start : Starts Name) (released expired finished : Nat)
    (state : Replaying) : Prop where
  upcoming : state.upcoming =
    trace.ordered.filter fun request => decide (released ≤ request.releaseNs.val)
  queue : state.queue = trace.ordered.filter fun request =>
    decide (request.releaseNs.val < released ∧ start request.id = none ∧
      expired ≤ request.expiryNs)
  active : state.active.Perm (trace.ordered.filterMap (·.entryAt start finished))
  sorted : state.active.Pairwise entryLE
  rows : state.rows =
    (trace.ordered.filter fun request => decide (request.releaseNs.val < released)).map
      (·.recordAt start expired finished)

section Rows

variable {start : Starts Name} {expired finished now : Nat}
variable {requests : List ReplayRequest} {record : ReplayRequest → ReplayRecord}

@[simp]
theorem recordAt_id (request : ReplayRequest) :
    (request.recordAt start expired finished).id = request.id := by
  unfold ReplayRequest.recordAt
  split <;> split <;> rfl

theorem changeRow_map {id : Name} {change : ReplayRecord → ReplayRecord}
    (keeps : ∀ request, (record request).id = request.id) :
    changeRow id change (requests.map record) =
      requests.map fun request =>
        if request.id = id then change (record request) else record request := by
  unfold changeRow
  rw [List.map_map]
  apply List.map_congr_left
  intro request _
  simp only [Function.comp_apply, keeps]

/-- An entry belongs to the request whose identifier it carries. -/
theorem entryAt_eq_some {request : ReplayRequest} {entry : ActiveEntry} :
    request.entryAt start finished = some entry ↔
      ∃ began, start request.id = some began ∧ finished ≤ began + request.serviceNs.val ∧
        entry = (began + request.serviceNs.val, request.id) := by
  unfold ReplayRequest.entryAt
  cases start request.id with
  | none => simp
  | some began => simp [eq_comm]

theorem entryLE_iff {first second : ActiveEntry} :
    entryLE first second ↔ toLex (first.1, first.2.text) ≤ toLex (second.1, second.2.text) := by
  rw [Prod.Lex.toLex_le_toLex]
  rfl

instance : Std.Total entryLE := ⟨fun first second => by
  simp only [entryLE_iff]
  exact le_total _ _⟩

instance : IsTrans ActiveEntry entryLE := ⟨fun first second third => by
  simp only [entryLE_iff]
  exact le_trans⟩

/-- The heap returns its entries in the order of completion. -/
theorem finish_sorted {active : List ActiveEntry} (sorted : active.Pairwise entryLE) :
    active.Pairwise fun first second => first.1 ≤ second.1 := by
  apply sorted.imp
  rintro first second (earlier | ⟨same, _⟩)
  · exact le_of_lt earlier
  · exact le_of_eq same

theorem settleActive_fst {active : List ActiveEntry} {rows : List ReplayRecord}
    (sorted : active.Pairwise fun first second => first.1 ≤ second.1) :
    (settleActive now active rows).1 = active.filter fun entry => decide (now < entry.1) := by
  induction active generalizing rows with
  | nil => rfl
  | cons entry active ih =>
      obtain ⟨finish, id⟩ := entry
      obtain ⟨least, rest⟩ := List.pairwise_cons.mp sorted
      rw [settleActive]
      split
      · rename_i due
        rw [ih rest, List.filter_cons_of_neg (by simpa using due)]
      · rename_i early
        symm
        rw [List.filter_eq_self]
        intro other member
        rcases List.mem_cons.mp member with rfl | later
        · simpa using early
        · have := least other later
          simp only [decide_eq_true_eq]
          omega

theorem settleActive_snd {active : List ActiveEntry}
    (sorted : active.Pairwise fun first second => first.1 ≤ second.1)
    (distinct : (active.map (·.2)).Nodup)
    (keeps : ∀ request, (record request).id = request.id) :
    (settleActive now active (requests.map record)).2 = requests.map fun request =>
      match active.find? fun entry => entry.2 = request.id with
      | none => record request
      | some entry => if entry.1 ≤ now then (record request).complete entry.1
          else record request := by
  induction active generalizing record with
  | nil => simp [settleActive]
  | cons entry active ih =>
      obtain ⟨finish, id⟩ := entry
      obtain ⟨least, rest⟩ := List.pairwise_cons.mp sorted
      obtain ⟨absent, restDistinct⟩ := List.nodup_cons.mp distinct
      rw [settleActive]
      split
      · rename_i due
        rw [changeRow_map keeps, ih rest restDistinct (by
          intro request
          split
          · exact keeps request
          · exact keeps request)]
        apply List.map_congr_left
        intro request _
        by_cases own : request.id = id
        · have gone : (active.find? fun entry => decide (entry.2 = id)) = none := by
            apply List.find?_eq_none.mpr
            intro other member same
            rw [decide_eq_true_eq] at same
            exact absent (List.mem_map.mpr ⟨other, member, same⟩)
          simp only [gone, List.find?_cons, own, decide_true, if_pos due, if_true]
        · have skip : decide (id = request.id) = false := by simpa using Ne.symm own
          simp only [List.find?_cons, skip, if_neg own]
      · rename_i early
        apply List.map_congr_left
        intro request _
        split
        · rfl
        · rename_i found
          have member := List.mem_of_find?_eq_some found
          rw [if_neg]
          rcases List.mem_cons.mp member with rfl | later
          · exact early
          · have := least _ later
            dsimp only at this
            omega

/-- The cursor takes exactly the released requests, in their order. -/
theorem releaseDue_eq (now : Nat) (queue : List ReplayRequest) {upcoming : List ReplayRequest}
    {rows : List ReplayRecord}
    (sorted : upcoming.Pairwise fun first second =>
      first.releaseNs.val ≤ second.releaseNs.val)
    (distinct : (rows.map (·.id) ++ upcoming.map (·.id)).Nodup) :
    releaseDue now upcoming queue rows =
      (upcoming.filter fun request => decide (now < request.releaseNs.val),
        queue ++ upcoming.filter fun request => decide (request.releaseNs.val ≤ now),
        rows ++ (upcoming.filter fun request => decide (request.releaseNs.val ≤ now)).map
          (·.row)) := by
  induction upcoming generalizing queue rows with
  | nil => simp [releaseDue]
  | cons request upcoming ih =>
      obtain ⟨least, rest⟩ := List.pairwise_cons.mp sorted
      rw [releaseDue]
      split
      · rename_i due
        have fresh : ¬ rows.any (fun row => decide (row.id = request.row.id)) = true := by
          intro taken
          obtain ⟨row, member, same⟩ := List.any_eq_true.mp taken
          rw [decide_eq_true_eq] at same
          exact (List.nodup_append.mp distinct).2.2 row.id (List.mem_map_of_mem member)
            request.id (by simp) same
        have tail : ((rows ++ [request.row]).map (·.id) ++ upcoming.map (·.id)).Nodup := by
          simpa [ReplayRequest.row] using distinct
        rw [putRow, if_neg fresh, ih _ rest tail,
          List.filter_cons_of_neg (by simpa using due), List.filter_cons_of_pos (by simpa using due)]
        simp
      · rename_i early
        have none : upcoming.filter (fun other => decide (other.releaseNs.val ≤ now)) = [] := by
          apply List.filter_eq_nil_iff.mpr
          intro other member released
          have := least other member
          rw [decide_eq_true_eq] at released
          omega
        have all : upcoming.filter (fun other => decide (now < other.releaseNs.val)) =
            upcoming := by
          apply List.filter_eq_self.mpr
          intro other member
          have := least other member
          rw [decide_eq_true_eq]
          omega
        rw [List.filter_cons_of_pos (by simpa using early),
          List.filter_cons_of_neg (by simpa using early), none, all]
        simp

/-- The snapshot loop drops the queued requests whose time has passed. -/
theorem expireQueued_fst {snapshot queue : List ReplayRequest} {rows : List ReplayRecord}
    (distinct : queue.Nodup) :
    (expireQueued now snapshot queue rows).1 =
      queue.filter fun request => decide (request ∈ snapshot → now < request.latestNs) := by
  induction snapshot generalizing queue rows with
  | nil => simp [expireQueued]
  | cons request snapshot ih =>
      rw [expireQueued]
      split
      · rename_i passed
        rw [ih (distinct.erase _), distinct.erase_eq_filter, List.filter_filter]
        apply List.filter_congr
        intro other _
        rw [Bool.eq_iff_iff]
        by_cases same : other = request
        · subst same
          simp
          omega
        · simp [same]
      · rename_i current
        rw [ih distinct]
        apply List.filter_congr
        intro other _
        rw [decide_eq_decide]
        by_cases same : other = request
        · subst same
          simp
          omega
        · simp [same]

theorem expireQueued_snd {snapshot queue : List ReplayRequest}
    (keeps : ∀ request, (record request).id = request.id) :
    (expireQueued now snapshot queue (requests.map record)).2 = requests.map fun request =>
      if ∃ other ∈ snapshot, other.id = request.id ∧ other.latestNs ≤ now then
        (record request).expire
      else record request := by
  induction snapshot generalizing queue record with
  | nil => simp [expireQueued]
  | cons first snapshot ih =>
      rw [expireQueued]
      split
      · rename_i passed
        rw [changeRow_map keeps, ih (by intro request; split <;> exact keeps request)]
        apply List.map_congr_left
        intro request _
        by_cases own : request.id = first.id
        · simp [own, passed, ReplayRecord.expire]
        · simp [own, Ne.symm own]
      · rename_i current
        rw [ih keeps]
        apply List.map_congr_left
        intro request _
        simp [current]

/-- The entry of a request that is started now. -/
def ReplayRequest.entry (now : Nat) (request : ReplayRequest) : ActiveEntry :=
  (now + request.serviceNs.val, request.id)

variable {slots : Nat} {eligible queue : List ReplayRequest} {active : List ActiveEntry}

theorem startEligible_queue {rows : List ReplayRecord} (distinct : queue.Nodup) :
    (startEligible slots now eligible queue active rows).1 =
      queue.filter fun request => decide (request ∉ eligible.take (slots - active.length)) := by
  induction eligible generalizing queue active rows with
  | nil => simp [startEligible]
  | cons request eligible ih =>
      rw [startEligible]
      split
      · rename_i free
        rw [ih (distinct.erase _), distinct.erase_eq_filter, List.filter_filter, heapPush,
          List.orderedInsert_length,
          show slots - active.length = slots - (active.length + 1) + 1 by omega, List.take_succ_cons]
        apply List.filter_congr
        intro other _
        rw [Bool.eq_iff_iff]
        simp [and_comm]
      · rename_i full
        rw [show slots - active.length = 0 by omega]
        simp

theorem startEligible_active {rows : List ReplayRecord} :
    (startEligible slots now eligible queue active rows).2.1.Perm
      ((eligible.take (slots - active.length)).map (·.entry now) ++ active) := by
  induction eligible generalizing queue active rows with
  | nil => simp [startEligible]
  | cons request eligible ih =>
      rw [startEligible]
      split
      · rename_i free
        apply ih.trans
        rw [heapPush, List.orderedInsert_length,
          show slots - active.length = slots - (active.length + 1) + 1 by omega, List.take_succ_cons,
          List.map_cons, List.cons_append]
        exact ((List.perm_orderedInsert _ _ _).append_left _).trans List.perm_middle
      · rename_i full
        rw [show slots - active.length = 0 by omega]
        simp

theorem startEligible_sorted {rows : List ReplayRecord} (sorted : active.Pairwise entryLE) :
    (startEligible slots now eligible queue active rows).2.1.Pairwise entryLE := by
  induction eligible generalizing queue active rows with
  | nil => exact sorted
  | cons request eligible ih =>
      rw [startEligible]
      split
      · exact ih (sorted.orderedInsert _ _)
      · exact sorted

theorem startEligible_rows (keeps : ∀ request, (record request).id = request.id) :
    (startEligible slots now eligible queue active (requests.map record)).2.2 =
      requests.map fun request =>
        if request.id ∈ (eligible.take (slots - active.length)).map (·.id) then
          (record request).start now
        else record request := by
  induction eligible generalizing queue active record with
  | nil => simp [startEligible]
  | cons first eligible ih =>
      rw [startEligible]
      split
      · rename_i free
        rw [changeRow_map keeps, ih (by intro request; split <;> exact keeps request), heapPush,
          List.orderedInsert_length,
          show slots - active.length = slots - (active.length + 1) + 1 by omega, List.take_succ_cons]
        apply List.map_congr_left
        intro request _
        by_cases own : request.id = first.id
        · simp [own, ReplayRecord.start]
        · simp [own]
      · rename_i full
        rw [show slots - active.length = 0 by omega]
        simp

end Rows

section Phases

variable {trace : Trace} {start : Starts Name} {released expired finished : Nat}
variable {state : Replaying} {request : ReplayRequest} {mode : Scheduler}

/-- Each request has at most one entry, under its own identifier. -/
theorem Trace.entry_ids_nodup :
    ((trace.ordered.filterMap (·.entryAt start finished)).map (·.2)).Nodup := by
  have ids : ∀ requests : List ReplayRequest,
      ((requests.filterMap (·.entryAt start finished)).map (·.2)).Sublist
        (requests.map (·.id)) := by
    intro requests
    induction requests with
    | nil => exact List.Sublist.refl _
    | cons request requests ih =>
        cases found : request.entryAt start finished with
        | none =>
            rw [List.filterMap_cons_none found]
            exact ih.cons _
        | some entry =>
            obtain ⟨began, _, _, rfl⟩ := entryAt_eq_some.mp found
            rw [List.filterMap_cons_some found]
            exact ih.cons_cons _
  exact Trace.ordered_ids_nodup.sublist (ids _)

theorem Tracks.ids_nodup (tracks : Tracks trace start released expired finished state) :
    (state.active.map (·.2)).Nodup :=
  (tracks.active.map _).nodup_iff.mpr Trace.entry_ids_nodup

/-- An entry of the heap is found under the identifier of its request. -/
theorem Tracks.find_entry (tracks : Tracks trace start released expired finished state)
    (member : request ∈ trace.ordered) :
    (state.active.find? fun entry => decide (entry.2 = request.id)) =
      request.entryAt start finished := by
  have owner : ∀ entry ∈ state.active, entry.2 = request.id →
      request.entryAt start finished = some entry := by
    intro entry present same
    obtain ⟨other, known, found⟩ :=
      List.mem_filterMap.mp (tracks.active.mem_iff.mp present)
    obtain ⟨_, _, _, shape⟩ := entryAt_eq_some.mp found
    rw [shape] at same
    rwa [Trace.eq_of_id (Trace.mem_ordered.mp known) (Trace.mem_ordered.mp member) same] at found
  cases found : state.active.find? fun entry => decide (entry.2 = request.id) with
  | some entry =>
      have same := List.find?_some found
      rw [decide_eq_true_eq] at same
      exact (owner entry (List.mem_of_find?_eq_some found) same).symm
  | none =>
      cases mine : request.entryAt start finished with
      | none => rfl
      | some entry =>
          obtain ⟨_, _, _, shape⟩ := entryAt_eq_some.mp mine
          have present := tracks.active.mem_iff.mpr (List.mem_filterMap.mpr ⟨request, member, mine⟩)
          have absent := List.find?_eq_none.mp found entry present
          rw [shape] at absent
          simp at absent

/-- Completions are recorded at their instant. -/
theorem Tracks.settle
    (tracks : Tracks trace start released expired state.now state) :
    Tracks trace start released expired (state.now + 1) state.settle := by
  have sorted := finish_sorted tracks.sorted
  constructor
  · exact tracks.upcoming
  · exact tracks.queue
  · -- the entries that remain are those of the requests that are not complete
    change (settleActive state.now state.active state.rows).1.Perm _
    rw [settleActive_fst sorted]
    apply (tracks.active.filter _).trans
    rw [List.filter_filterMap]
    apply List.Perm.of_eq
    apply List.filterMap_congr
    intro request _
    unfold ReplayRequest.entryAt
    cases start request.id with
    | none => rfl
    | some began =>
        dsimp only
        by_cases later : state.now + 1 ≤ began + request.serviceNs.val
        · rw [if_pos (by omega), if_pos later]
          simp
          omega
        · rw [if_neg later]
          split
          · simp
            omega
          · rfl
  · change (settleActive state.now state.active state.rows).1.Pairwise _
    rw [settleActive_fst sorted]
    exact tracks.sorted.filter _
  · change (settleActive state.now state.active state.rows).2 = _
    rw [tracks.rows, settleActive_snd sorted tracks.ids_nodup recordAt_id]
    apply List.map_congr_left
    intro request member
    rw [tracks.find_entry (List.mem_of_mem_filter member)]
    unfold ReplayRequest.entryAt ReplayRequest.recordAt
    cases start request.id with
    | none => rfl
    | some began =>
        dsimp only
        by_cases later : state.now ≤ began + request.serviceNs.val
        · rw [if_pos later, if_neg (by omega)]
          by_cases due : began + request.serviceNs.val ≤ state.now
          · simp only [if_pos due]
            rw [if_pos (by omega)]
          · simp only [if_neg due]
            rw [if_neg (by omega)]
        · rw [if_neg later, if_pos (by omega), if_pos (by omega)]

/-- In the order of time, the earlier items come first. -/
theorem filter_append_filter {α : Type} {items : List α} {time : α → Nat} (instant : Nat)
    (sorted : items.Pairwise fun first second => time first ≤ time second) :
    (items.filter fun item => decide (time item < instant)) ++
      (items.filter fun item => decide (instant ≤ time item)) = items := by
  induction items with
  | nil => rfl
  | cons item items ih =>
      obtain ⟨least, rest⟩ := List.pairwise_cons.mp sorted
      by_cases early : time item < instant
      · rw [List.filter_cons_of_pos (by simpa using early),
          List.filter_cons_of_neg (by simpa using early), List.cons_append, ih rest]
      · have none : items.filter (fun other => decide (time other < instant)) = [] := by
          apply List.filter_eq_nil_iff.mpr
          intro other member soon
          have := least other member
          rw [decide_eq_true_eq] at soon
          omega
        have all : items.filter (fun other => decide (instant ≤ time other)) = items := by
          apply List.filter_eq_self.mpr
          intro other member
          have := least other member
          rw [decide_eq_true_eq]
          omega
        rw [List.filter_cons_of_neg (by simpa using early),
          List.filter_cons_of_pos (by simpa using early), none, all, List.nil_append]

/-- The requests released at one instant follow the earlier ones. -/
theorem Trace.filter_released (trace : Trace) (wanted : ReplayRequest → Prop) [DecidablePred wanted]
    (instant : Nat) :
    (trace.ordered.filter fun request =>
        decide (request.releaseNs.val < instant ∧ wanted request)) ++
      (trace.ordered.filter fun request =>
        decide (request.releaseNs.val = instant ∧ wanted request)) =
    trace.ordered.filter fun request =>
      decide (request.releaseNs.val < instant + 1 ∧ wanted request) := by
  have sorted := trace.ordered_sorted.filter fun request =>
    decide (request.releaseNs.val < instant + 1 ∧ wanted request)
  rw [← filter_append_filter instant sorted, List.filter_filter, List.filter_filter]
  congr 1
  · apply List.filter_congr
    intro request _
    rw [← Bool.decide_and, decide_eq_decide]
    constructor
    · rintro ⟨early, holds⟩
      exact ⟨early, by omega, holds⟩
    · rintro ⟨early, _, holds⟩
      exact ⟨early, holds⟩
  · apply List.filter_congr
    intro request _
    rw [← Bool.decide_and, decide_eq_decide]
    constructor
    · rintro ⟨now, holds⟩
      exact ⟨by omega, by omega, holds⟩
    · rintro ⟨late, early, holds⟩
      exact ⟨by omega, holds⟩

/-- Starts that were made before an instant, none of them before the release. -/
def Causal (trace : Trace) (start : Starts Name) (now : Nat) : Prop :=
  ∀ request ∈ trace.requests, ∀ began, start request.id = some began →
    request.releaseNs.val ≤ began ∧ began < now

theorem Trace.causal (mode : Scheduler) (now : Nat) :
    Causal trace ((trace.work mode).startsBefore now) now := by
  intro request member began started
  obtain ⟨_, earlier, later, _⟩ := Demand.startsBefore_spec started
  have release := Trace.reading_of_mem (·.releaseNs.val) member
  exact ⟨release ▸ later, earlier⟩

/-- The requests released at the instant enter the queue. -/
theorem Tracks.release (tracks : Tracks trace start state.now state.now finished state)
    (causal : Causal trace start state.now) :
    Tracks trace start (state.now + 1) state.now finished state.release := by
  have sorted : state.upcoming.Pairwise fun first second =>
      first.releaseNs.val ≤ second.releaseNs.val := by
    rw [tracks.upcoming]
    exact trace.ordered_sorted.filter _
  have distinct : (state.rows.map (·.id) ++ state.upcoming.map (·.id)).Nodup := by
    rw [tracks.rows, tracks.upcoming, List.map_map]
    have ids : ReplayRecord.id ∘ ReplayRequest.recordAt start state.now finished =
        ReplayRequest.id := funext recordAt_id
    rw [ids, ← List.map_append, filter_append_filter _ trace.ordered_sorted]
    exact Trace.ordered_ids_nodup
  have due : state.upcoming.filter (fun request => decide (request.releaseNs.val ≤ state.now)) =
      trace.ordered.filter fun request => decide (request.releaseNs.val = state.now) := by
    rw [tracks.upcoming, List.filter_filter]
    apply List.filter_congr
    intro request _
    rw [← Bool.decide_and, decide_eq_decide]
    omega
  -- what is released now has not been started and is not marked as expired yet
  have fresh : ∀ request ∈ trace.ordered, request.releaseNs.val = state.now →
      start request.id = none ∧ state.now ≤ request.expiryNs := by
    intro request member now
    constructor
    · cases begun : start request.id with
      | none => rfl
      | some began =>
          have := causal request (Trace.mem_ordered.mp member) began begun
          omega
    · unfold ReplayRequest.expiryNs
      omega
  have released := releaseDue_eq state.now state.queue sorted distinct
  constructor
  · change (releaseDue state.now state.upcoming state.queue state.rows).1 = _
    rw [released, tracks.upcoming, List.filter_filter]
    apply List.filter_congr
    intro request _
    rw [← Bool.decide_and, decide_eq_decide]
    omega
  · change (releaseDue state.now state.upcoming state.queue state.rows).2.1 = _
    rw [released, due, tracks.queue, ← trace.filter_released]
    dsimp only
    congr 1
    apply List.filter_congr
    intro request member
    rw [decide_eq_decide]
    exact ⟨fun now => ⟨now, fresh request member now⟩, And.left⟩
  · exact tracks.active
  · exact tracks.sorted
  · change (releaseDue state.now state.upcoming state.queue state.rows).2.2 = _
    have whole := trace.filter_released (fun _ => True) state.now
    simp only [and_true] at whole
    rw [released, due, tracks.rows, ← whole, List.map_append]
    dsimp only
    congr 1
    apply List.map_congr_left
    intro request member
    obtain ⟨known, now⟩ := List.mem_filter.mp member
    rw [decide_eq_true_eq] at now
    obtain ⟨unstarted, current⟩ := fresh request known now
    unfold ReplayRequest.recordAt
    rw [unstarted]
    exact (if_neg (not_lt.mpr current)).symm

theorem Tracks.mem_queue (tracks : Tracks trace start released expired finished state) :
    request ∈ state.queue ↔ request ∈ trace.ordered ∧ request.releaseNs.val < released ∧
      start request.id = none ∧ expired ≤ request.expiryNs := by
  rw [tracks.queue, List.mem_filter, decide_eq_true_eq]

theorem Tracks.queue_nodup (tracks : Tracks trace start released expired finished state) :
    state.queue.Nodup := by
  rw [tracks.queue]
  exact Trace.ordered_nodup.filter _

/-- The queued requests whose time has passed expire. -/
theorem Tracks.expire (tracks : Tracks trace start (state.now + 1) state.now finished state) :
    Tracks trace start (state.now + 1) (state.now + 1) finished state.expire := by
  constructor
  · exact tracks.upcoming
  · change (expireQueued state.now state.queue state.queue state.rows).1 = _
    rw [expireQueued_fst tracks.queue_nodup]
    have within : state.queue.filter (fun request =>
        decide (request ∈ state.queue → state.now < request.latestNs)) =
        state.queue.filter fun request => decide (state.now < request.latestNs) := by
      apply List.filter_congr
      intro request member
      rw [decide_eq_decide]
      exact ⟨fun holds => holds member, fun holds _ => holds⟩
    rw [within, tracks.queue, List.filter_filter]
    apply List.filter_congr
    intro request _
    rw [← Bool.decide_and, decide_eq_decide]
    unfold ReplayRequest.expiryNs
    constructor
    · rintro ⟨current, early, unstarted, _⟩
      exact ⟨early, unstarted, by omega⟩
    · rintro ⟨early, unstarted, current⟩
      exact ⟨by omega, early, unstarted, by omega⟩
  · exact tracks.active
  · exact tracks.sorted
  · change (expireQueued state.now state.queue state.queue state.rows).2 = _
    rw [tracks.rows, expireQueued_snd recordAt_id]
    apply List.map_congr_left
    intro request member
    obtain ⟨known, early⟩ := List.mem_filter.mp member
    rw [decide_eq_true_eq] at early
    have own : (∃ other ∈ state.queue, other.id = request.id ∧ other.latestNs ≤ state.now) ↔
        start request.id = none ∧ state.now ≤ request.expiryNs ∧
          request.latestNs ≤ state.now := by
      constructor
      · rintro ⟨other, queued, same, passed⟩
        obtain ⟨present, _, unstarted, current⟩ := tracks.mem_queue.mp queued
        cases Trace.eq_of_id (Trace.mem_ordered.mp present) (Trace.mem_ordered.mp known) same
        exact ⟨unstarted, current, passed⟩
      · rintro ⟨unstarted, current, passed⟩
        exact ⟨request, tracks.mem_queue.mpr ⟨known, early, unstarted, current⟩, rfl, passed⟩
    simp only [own]
    unfold ReplayRequest.recordAt
    cases start request.id with
    | some began => simp
    | none =>
        unfold ReplayRequest.expiryNs
        dsimp only
        by_cases passed : request.latestNs ≤ state.now
        · rw [if_pos (show max request.releaseNs.val request.latestNs < state.now + 1 by omega)]
          split
          · split <;> rfl
          · rename_i before
            rw [if_pos (by simp at before; omega)]
        · rw [if_neg (by omega), if_neg (by omega), if_neg (by omega)]

section Starts

variable (tracks : Tracks trace start (state.now + 1) (state.now + 1) (state.now + 1) state)
  (causal : Causal trace start state.now)

theorem waiting_request (member : request ∈ trace.requests) (now : Nat) :
    (trace.work mode).waiting start now request.id = true ↔
      request.releaseNs.val ≤ now ∧ start request.id = none ∧
        now + request.profileNs.val < request.latestNs := by
  rw [Demand.waiting_iff]
  simp only [Trace.work, Trace.reading_of_mem _ member]

include tracks in
/-- The eligible requests are the waiting work in the order of its rank. -/
theorem eligible_ids :
    (eligibleRequests mode state.now state.queue).map (·.id) =
      ((trace.work mode).items.filter ((trace.work mode).waiting start state.now)).insertionSort
        ((trace.work mode).rankLE state.now) := by
  have known : ∀ request ∈ eligibleRequests mode state.now state.queue,
      request ∈ trace.requests := fun request member =>
    Trace.mem_ordered.mp (tracks.mem_queue.mp (mem_eligibleRequests.mp member).1).1
  apply Demand.eq_sorted_of_perm
  · have distinct : (eligibleRequests mode state.now state.queue).Nodup :=
      (eligibleRequests_perm _).nodup_iff.mpr (tracks.queue_nodup.filter _)
    rw [List.perm_ext_iff_of_nodup _ ((trace.work mode).distinct.filter _)]
    · intro id
      rw [List.mem_map, List.mem_filter]
      constructor
      · rintro ⟨request, member, rfl⟩
        obtain ⟨queued, inTime⟩ := mem_eligibleRequests.mp member
        obtain ⟨_, early, unstarted, _⟩ := tracks.mem_queue.mp queued
        exact ⟨List.mem_map_of_mem (known request member),
          (waiting_request (known request member) _).mpr ⟨by omega, unstarted, inTime⟩⟩
      · rintro ⟨member, waits⟩
        obtain ⟨request, present, rfl⟩ := List.mem_map.mp member
        obtain ⟨early, unstarted, inTime⟩ := (waiting_request present _).mp waits
        have current : state.now + 1 ≤ request.expiryNs := by
          unfold ReplayRequest.expiryNs
          omega
        exact ⟨request, mem_eligibleRequests.mpr ⟨tracks.mem_queue.mpr
          ⟨Trace.mem_ordered.mpr present, by omega, unstarted, current⟩, inTime⟩, rfl⟩
    · apply List.Nodup.map_on _ distinct
      intro first firstMember second secondMember same
      exact Trace.eq_of_id (known first firstMember) (known second secondMember) same
  · rw [List.pairwise_map]
    have ranked : (eligibleRequests mode state.now state.queue).Pairwise fun first second =>
        rank first.candidate state.now mode ≤ rank second.candidate state.now mode := by
      unfold eligibleRequests
      rw [List.pairwise_map]
      apply (sortByRank_sorted _).imp_of_mem
      intro first second firstMember secondMember order
      obtain ⟨one, _, rfl⟩ := List.mem_map.mp ((sortByRank_perm _).mem_iff.mp firstMember)
      obtain ⟨two, _, rfl⟩ := List.mem_map.mp ((sortByRank_perm _).mem_iff.mp secondMember)
      exact order
    apply ranked.imp_of_mem
    intro first second firstMember secondMember order
    simpa only [Demand.rankLE, Trace.work, Trace.rankAt,
      Trace.request?_of_mem (known first firstMember),
      Trace.request?_of_mem (known second secondMember)] using order

include causal tracks in
/-- The slots in use are the entries of the heap. -/
theorem busy_eq_length (mode : Scheduler) :
    (trace.work mode).busy start state.now = state.active.length := by
  have counted : ∀ requests : List ReplayRequest, (∀ request ∈ requests,
      request ∈ trace.requests) →
      (requests.map (·.id)).countP ((trace.work mode).running start state.now) =
        (requests.filterMap (·.entryAt start (state.now + 1))).length := by
    intro requests known
    induction requests with
    | nil => rfl
    | cons request requests ih =>
        have tail := ih fun other member => known other (List.mem_cons_of_mem _ member)
        have member := known request List.mem_cons_self
        rw [List.map_cons, List.countP_cons, tail, List.filterMap_cons]
        have service := Trace.reading_of_mem (·.serviceNs.val) member
        unfold Demand.running ReplayRequest.entryAt
        cases begun : start request.id with
        | none => simp
        | some began =>
            have early := (causal request member began begun).2
            simp only [Trace.work, service]
            by_cases runs : state.now + 1 ≤ began + request.serviceNs.val
            · rw [if_pos runs]
              simp only [List.length_cons]
              rw [if_pos (by simp; omega)]
            · rw [if_neg runs, if_neg (by simp; omega)]
              rfl
  rw [tracks.active.length_eq, ← counted trace.ordered fun _ member =>
    Trace.mem_ordered.mp member]
  exact ((Trace.ordered_perm.map (·.id)).countP_eq _).symm

include causal tracks in
/-- The requests that are started are the ones the greedy schedule chooses. -/
theorem taken_ids :
    ((eligibleRequests mode state.now state.queue).take
        (trace.slots - state.active.length)).map (·.id) =
      (trace.work mode).chosen start state.now := by
  rw [List.map_take, eligible_ids tracks, ← busy_eq_length tracks causal mode]
  rfl

include causal tracks in
/-- What a request looks like in the schedule after the choice. -/
theorem dispatch_request (member : request ∈ trace.requests) :
    (trace.work mode).dispatch start state.now request.id =
      if request ∈ (eligibleRequests mode state.now state.queue).take
          (trace.slots - state.active.length) then some state.now
      else start request.id := by
  have taken : request.id ∈ (trace.work mode).chosen start state.now ↔
      request ∈ (eligibleRequests mode state.now state.queue).take
        (trace.slots - state.active.length) := by
    rw [← taken_ids tracks causal, List.mem_map]
    constructor
    · rintro ⟨other, present, same⟩
      have known := Trace.mem_ordered.mp (tracks.mem_queue.mp
        (mem_eligibleRequests.mp (List.mem_of_mem_take present)).1).1
      rwa [← Trace.eq_of_id known member same]
    · intro present
      exact ⟨request, present, rfl⟩
  unfold Demand.dispatch
  simp only [taken]

include causal tracks in
/-- The free slots go to the eligible requests in the order of their rank. -/
theorem Tracks.started :
    Tracks trace ((trace.work mode).dispatch start state.now) (state.now + 1) (state.now + 1)
      (state.now + 1) (state.start trace.slots mode) := by
  set taken := (eligibleRequests mode state.now state.queue).take
    (trace.slots - state.active.length) with takenEq
  have chosen : ∀ request ∈ trace.requests,
      (trace.work mode).dispatch start state.now request.id =
        if request ∈ taken then some state.now else start request.id := fun request member =>
    dispatch_request tracks causal member
  have queued : ∀ request ∈ taken, request ∈ trace.ordered ∧
      request.releaseNs.val < state.now + 1 ∧ start request.id = none ∧
        state.now + 1 ≤ request.expiryNs := fun request member =>
    tracks.mem_queue.mp (mem_eligibleRequests.mp (List.mem_of_mem_take member)).1
  have lasts : ∀ request : ReplayRequest, state.now + 1 ≤ state.now + request.serviceNs.val :=
    fun request => by have := Nat.pos_of_ne_zero request.lasting; omega
  constructor
  · exact tracks.upcoming
  · change (startEligible _ _ _ _ _ state.rows).1 = _
    rw [startEligible_queue tracks.queue_nodup, ← takenEq, tracks.queue, List.filter_filter]
    apply List.filter_congr
    intro request member
    rw [← Bool.decide_and, decide_eq_decide, chosen request (Trace.mem_ordered.mp member)]
    by_cases mine : request ∈ taken <;> simp [mine]
  · apply startEligible_active.trans
    rw [← takenEq]
    have entries : ∀ request ∈ trace.ordered,
        request.entryAt ((trace.work mode).dispatch start state.now) (state.now + 1) =
          if request ∈ taken then some (request.entry state.now)
          else request.entryAt start (state.now + 1) := by
      intro request member
      unfold ReplayRequest.entryAt
      rw [chosen request (Trace.mem_ordered.mp member)]
      by_cases mine : request ∈ taken
      · simp only [if_pos mine]
        rw [if_pos (lasts request)]
        rfl
      · simp only [if_neg mine]
    have distinct : (taken.map (·.entry state.now) ++ state.active).Nodup := by
      apply List.Nodup.append
      · apply List.Nodup.map_on
        · intro first firstMember second secondMember same
          exact Trace.eq_of_id (Trace.mem_ordered.mp (queued first firstMember).1)
            (Trace.mem_ordered.mp (queued second secondMember).1) (congrArg Prod.snd same)
        · exact ((eligibleRequests_perm _).nodup_iff.mpr
            (tracks.queue_nodup.filter _)).sublist (List.take_sublist _ _)
      · exact List.Nodup.of_map _ tracks.ids_nodup
      · intro entry new old
        obtain ⟨request, member, rfl⟩ := List.mem_map.mp new
        obtain ⟨other, known, found⟩ := List.mem_filterMap.mp (tracks.active.mem_iff.mp old)
        obtain ⟨began, begun, _, shape⟩ := entryAt_eq_some.mp found
        have same : request.id = other.id := congrArg Prod.snd shape
        rw [← same, (queued request member).2.2.1] at begun
        contradiction
    rw [List.perm_ext_iff_of_nodup distinct (List.Nodup.of_map _ Trace.entry_ids_nodup)]
    intro entry
    rw [List.mem_append, List.mem_map, tracks.active.mem_iff, List.mem_filterMap,
      List.mem_filterMap]
    constructor
    · rintro (⟨request, member, rfl⟩ | ⟨request, known, found⟩)
      · have known := (queued request member).1
        exact ⟨request, known, by rw [entries request known, if_pos member]⟩
      · refine ⟨request, known, ?_⟩
        rw [entries request known, if_neg, found]
        intro member
        obtain ⟨_, begun, _⟩ := entryAt_eq_some.mp found
        rw [(queued request member).2.2.1] at begun
        contradiction
    · rintro ⟨request, known, found⟩
      rw [entries request known] at found
      by_cases mine : request ∈ taken
      · rw [if_pos mine, Option.some.injEq] at found
        exact Or.inl ⟨request, mine, found⟩
      · rw [if_neg mine] at found
        exact Or.inr ⟨request, known, found⟩
  · exact startEligible_sorted tracks.sorted
  · change (startEligible _ _ _ _ _ state.rows).2.2 = _
    rw [tracks.rows, startEligible_rows recordAt_id, ← takenEq]
    apply List.map_congr_left
    intro request member
    have known := List.mem_of_mem_filter member
    have ids : request.id ∈ taken.map (·.id) ↔ request ∈ taken := by
      rw [List.mem_map]
      constructor
      · rintro ⟨other, present, same⟩
        rwa [← Trace.eq_of_id (Trace.mem_ordered.mp (queued other present).1)
          (Trace.mem_ordered.mp known) same]
      · intro present
        exact ⟨request, present, rfl⟩
    simp only [ids]
    unfold ReplayRequest.recordAt
    rw [chosen request (Trace.mem_ordered.mp known)]
    by_cases mine : request ∈ taken
    · obtain ⟨_, _, unstarted, current⟩ := queued request mine
      have := lasts request
      simp only [if_pos mine, unstarted]
      rw [if_neg (not_lt.mpr current), if_neg (by omega)]
    · simp only [if_neg mine]

end Starts

/-- A turn of the loop records what happens at its instant, and starts what
the greedy schedule starts there. -/
theorem Tracks.turn (tracks : Tracks trace ((trace.work mode).startsBefore state.now) state.now
      state.now state.now state) :
    Tracks trace ((trace.work mode).startsBy state.now) (state.now + 1) (state.now + 1)
      (state.now + 1) (state.turn trace.slots mode) := by
  have causal := trace.causal mode state.now
  have settled : Tracks trace ((trace.work mode).startsBefore state.now) state.settle.now
      state.settle.now (state.settle.now + 1) state.settle := tracks.settle
  have released : Tracks trace ((trace.work mode).startsBefore state.now)
      (state.settle.release.now + 1) state.settle.release.now (state.settle.release.now + 1)
      state.settle.release := settled.release causal
  have expired : Tracks trace ((trace.work mode).startsBefore state.now)
      (state.settle.release.expire.now + 1) (state.settle.release.expire.now + 1)
      (state.settle.release.expire.now + 1) state.settle.release.expire := released.expire
  exact expired.started causal

end Phases

end AgminaRuntime
