import AgminaRuntime.KeyedTable
import AgminaRuntime.Scheduling
import Mathlib.Algebra.Order.BigOperators.Group.List
import Mathlib.Algebra.Order.Group.Nat

/-!
# Discrete-event replay of a request trace

A replay releases the requests of a trace at their declared instants and
schedules them on a number of equal slots.  The scheduler sees the profile of
a request; its service time only decides when the slot is free again.
-/

namespace AgminaRuntime

structure ReplayRequest where
  id : Name
  session : Name
  workload : Name
  releaseNs : Ns
  captureNs : Ns
  deadlineNs : Ns
  profileNs : Ns
  serviceNs : Ns
  priority : Fin 4
  maxAgeNs : Ns
  captured : captureNs ≤ releaseNs
  timely : releaseNs < deadlineNs
  lasting : serviceNs.val ≠ 0
  deriving DecidableEq

def ReplayRequest.latestNs (request : ReplayRequest) : Nat :=
  min request.deadlineNs.val (request.captureNs.val + request.maxAgeNs.val)

structure Trace where
  provenance : String
  synthetic : Bool
  durationNs : Ns
  slots : Nat
  requests : List ReplayRequest
  described : 1 ≤ provenance.length
  atLeastOne : 1 ≤ slots
  atMost : slots ≤ 64
  bounded : requests.length ≤ 100000
  unique : (requests.map (·.id)).Nodup
  inside : ∀ request ∈ requests, request.releaseNs ≤ durationNs
  deriving DecidableEq

inductive ReplayState
  | queued | running | completedInTime | completedLate | expiredBeforeDispatch
  deriving DecidableEq

structure ReplayRecord where
  id : Name
  session : Name
  workload : Name
  releaseNs : Ns
  captureNs : Ns
  latestNs : Nat
  startedNs : Option Nat
  completedNs : Option Nat
  state : ReplayState
  deriving DecidableEq

/-- The row of a request at its release. -/
def ReplayRequest.row (request : ReplayRequest) : ReplayRecord where
  id := request.id
  session := request.session
  workload := request.workload
  releaseNs := request.releaseNs
  captureNs := request.captureNs
  latestNs := request.latestNs
  startedNs := none
  completedNs := none
  state := .queued

namespace ReplayRecord

def complete (finish : Nat) (row : ReplayRecord) : ReplayRecord :=
  { row with
    completedNs := some finish
    state := if finish < row.latestNs then .completedInTime else .completedLate }

def expire (row : ReplayRecord) : ReplayRecord :=
  { row with state := .expiredBeforeDispatch }

def start (now : Nat) (row : ReplayRecord) : ReplayRecord :=
  { row with startedNs := some now, state := .running }

end ReplayRecord

/-- Assign to fields of `rows[id]`; the rows are a dictionary that keeps the
order of its insertions. -/
def changeRow (id : Name) (change : ReplayRecord → ReplayRecord) (rows : List ReplayRecord) :
    List ReplayRecord :=
  rows.map fun row => if row.id = id then change row else row

/-- `rows[row.id] = row`. -/
def putRow (row : ReplayRecord) (rows : List ReplayRecord) : List ReplayRecord :=
  if rows.any (·.id = row.id) then changeRow row.id (fun _ => row) rows else rows ++ [row]

/-- A running request: its completion instant and its identifier. -/
abbrev ActiveEntry := Nat × Name

/-- Tuple comparison of two heap entries. -/
def entryLE (first second : ActiveEntry) : Prop :=
  first.1 < second.1 ∨ first.1 = second.1 ∧ first.2.text ≤ second.2.text

instance : DecidableRel entryLE := fun first second =>
  inferInstanceAs (Decidable (first.1 < second.1 ∨ first.1 = second.1 ∧
    first.2.text ≤ second.2.text))

/-- `heapq.heappush`: the heap is represented by its entries in the order in
which `heappop` returns them. -/
def heapPush (entry : ActiveEntry) (heap : List ActiveEntry) : List ActiveEntry :=
  heap.orderedInsert entryLE entry

/-- The local variables of `replay`; the cursor is represented by the part of
the ordered requests that it has not passed. -/
structure Replaying where
  now : Nat
  upcoming : List ReplayRequest
  queue : List ReplayRequest
  active : List ActiveEntry
  rows : List ReplayRecord
  deriving DecidableEq

/-- Pop the entries of the heap that are complete. -/
def settleActive (now : Nat) :
    List ActiveEntry → List ReplayRecord → List ActiveEntry × List ReplayRecord
  | [], rows => ([], rows)
  | (finish, id) :: active, rows =>
      if finish ≤ now then settleActive now active (changeRow id (·.complete finish) rows)
      else ((finish, id) :: active, rows)

/-- Move the cursor over the requests that are released. -/
def releaseDue (now : Nat) : List ReplayRequest → List ReplayRequest → List ReplayRecord →
    List ReplayRequest × List ReplayRequest × List ReplayRecord
  | [], queue, rows => ([], queue, rows)
  | request :: upcoming, queue, rows =>
      if request.releaseNs.val ≤ now then
        releaseDue now upcoming (queue ++ [request]) (putRow request.row rows)
      else (request :: upcoming, queue, rows)

/-- `for r in list(queue)`: drop the queued requests whose time has passed. -/
def expireQueued (now : Nat) : List ReplayRequest → List ReplayRequest → List ReplayRecord →
    List ReplayRequest × List ReplayRecord
  | [], queue, rows => (queue, rows)
  | request :: snapshot, queue, rows =>
      if request.latestNs ≤ now then
        expireQueued now snapshot (queue.erase request) (changeRow request.id (·.expire) rows)
      else expireQueued now snapshot queue rows

def ReplayRequest.candidate (request : ReplayRequest) : Candidate where
  id := request.id
  submittedNs := request.releaseNs
  latestNs := request.latestNs
  estimateNs := request.profileNs.val
  priority := request.priority

/-- The queued requests that would still be in time, in the order of their
rank. -/
def eligibleRequests (mode : Scheduler) (now : Nat) (queue : List ReplayRequest) :
    List ReplayRequest :=
  (sortByRank ((queue.filter fun request =>
      decide (now + request.profileNs.val < request.latestNs)).map fun request =>
    (rank request.candidate now mode, request))).map (·.2)

/-- Start eligible requests while a slot is free. -/
def startEligible (slots now : Nat) : List ReplayRequest → List ReplayRequest →
    List ActiveEntry → List ReplayRecord →
      List ReplayRequest × List ActiveEntry × List ReplayRecord
  | [], queue, active, rows => (queue, active, rows)
  | request :: eligible, queue, active, rows =>
      if active.length < slots then
        startEligible slots now eligible (queue.erase request)
          (heapPush (now + request.serviceNs.val, request.id) active)
          (changeRow request.id (·.start now) rows)
      else (queue, active, rows)

/-- The events that a queued request still has before it. -/
def queuedEvents (now : Nat) (request : ReplayRequest) : Nat :=
  if now < request.latestNs then 2 else 0

def upcomingEvents (now : Nat) (request : ReplayRequest) : Nat :=
  if now < request.releaseNs.val then 3 else queuedEvents now request

def activeEvents (now : Nat) (entry : ActiveEntry) : Nat :=
  if now < entry.1 then 1 else 0

namespace Replaying

def settle (state : Replaying) : Replaying :=
  let settled := settleActive state.now state.active state.rows
  { state with active := settled.1, rows := settled.2 }

def release (state : Replaying) : Replaying :=
  let released := releaseDue state.now state.upcoming state.queue state.rows
  { state with upcoming := released.1, queue := released.2.1, rows := released.2.2 }

def expire (state : Replaying) : Replaying :=
  let expired := expireQueued state.now state.queue state.queue state.rows
  { state with queue := expired.1, rows := expired.2 }

def start (slots : Nat) (mode : Scheduler) (state : Replaying) : Replaying :=
  let started := startEligible slots state.now
    (eligibleRequests mode state.now state.queue) state.queue state.active state.rows
  { state with queue := started.1, active := started.2.1, rows := started.2.2 }

/-- What one turn of the loop does at its instant. -/
def turn (slots : Nat) (mode : Scheduler) (state : Replaying) : Replaying :=
  state.settle.release.expire.start slots mode

/-- `next_times`: the next release, completion and expiry. -/
def nextTimes (state : Replaying) : List Nat :=
  ([state.upcoming.head?.map (·.releaseNs.val), state.active.head?.map (·.1),
    (state.queue.map (·.latestNs)).min?].filterMap id).filter (state.now < ·)

/-- `while cursor < len(ordered) or queue or active`. -/
def unfinished (state : Replaying) : Bool :=
  !(state.upcoming.isEmpty && state.queue.isEmpty && state.active.isEmpty)

/-- How many events are left: a release, then an expiry or a start, then a
completion for each request. -/
def pending (state : Replaying) : Nat :=
  (state.upcoming.map (upcomingEvents state.now)).sum +
    (state.queue.map (queuedEvents state.now)).sum +
      (state.active.map (activeEvents state.now)).sum

end Replaying

section Termination

variable {now next slots : Nat} {mode : Scheduler} {state : Replaying}

theorem settleActive_events (active : List ActiveEntry) (rows : List ReplayRecord) :
    ((settleActive now active rows).1.map (activeEvents now)).sum =
      (active.map (activeEvents now)).sum := by
  induction active generalizing rows with
  | nil => rfl
  | cons entry active ih =>
      obtain ⟨finish, id⟩ := entry
      rw [settleActive]
      split
      · rename_i due
        rw [ih, List.map_cons, List.sum_cons, activeEvents, if_neg (by simpa using due), Nat.zero_add]
      · rfl

theorem releaseDue_events (upcoming queue : List ReplayRequest) (rows : List ReplayRecord) :
    ((releaseDue now upcoming queue rows).1.map (upcomingEvents now)).sum +
        ((releaseDue now upcoming queue rows).2.1.map (queuedEvents now)).sum =
      (upcoming.map (upcomingEvents now)).sum + (queue.map (queuedEvents now)).sum := by
  induction upcoming generalizing queue rows with
  | nil => rfl
  | cons request upcoming ih =>
      rw [releaseDue]
      split
      · rename_i due
        rw [ih]
        simp only [List.map_append, List.map_cons, List.map_nil, List.sum_append, List.sum_cons,
          List.sum_nil, upcomingEvents, if_neg (not_lt.mpr due)]
        omega
      · rfl

/-- Dropping a queued request drops its events. -/
theorem erase_events {queue : List ReplayRequest} {request : ReplayRequest}
    (member : request ∈ queue) :
    (queue.map (queuedEvents now)).sum =
      queuedEvents now request + ((queue.erase request).map (queuedEvents now)).sum := by
  rw [← List.sum_cons, ← List.map_cons]
  apply List.Perm.sum_nat
  exact (List.perm_cons_erase member).map _

theorem expireQueued_events (snapshot queue : List ReplayRequest) (rows : List ReplayRecord) :
    ((expireQueued now snapshot queue rows).1.map (queuedEvents now)).sum =
      (queue.map (queuedEvents now)).sum := by
  induction snapshot generalizing queue rows with
  | nil => rfl
  | cons request snapshot ih =>
      rw [expireQueued]
      split
      · rename_i passed
        rw [ih]
        by_cases member : request ∈ queue
        · rw [erase_events member, queuedEvents, if_neg (not_lt.mpr passed), Nat.zero_add]
        · rw [List.erase_of_not_mem member]
      · exact ih _ _

theorem heapPush_events (entry : ActiveEntry) (active : List ActiveEntry) :
    ((heapPush entry active).map (activeEvents now)).sum =
      activeEvents now entry + (active.map (activeEvents now)).sum := by
  rw [← List.sum_cons, ← List.map_cons]
  apply List.Perm.sum_nat
  exact (List.perm_orderedInsert _ _ _).map _

theorem mem_eligibleRequests {queue : List ReplayRequest} {request : ReplayRequest} :
    request ∈ eligibleRequests mode now queue ↔
      request ∈ queue ∧ now + request.profileNs.val < request.latestNs := by
  simp [eligibleRequests, sortByRank]

theorem eligibleRequests_perm (queue : List ReplayRequest) :
    (eligibleRequests mode now queue).Perm
      (queue.filter fun request => decide (now + request.profileNs.val < request.latestNs)) := by
  have perm := (sortByRank_perm ((queue.filter fun request =>
    decide (now + request.profileNs.val < request.latestNs)).map fun request =>
      (rank request.candidate now mode, request))).map (·.2)
  rw [List.map_map] at perm
  exact perm.trans (List.Perm.of_eq (List.map_id _))

theorem startEligible_events (slots now : Nat) (eligible queue : List ReplayRequest) (active : List ActiveEntry)
    (rows : List ReplayRecord)
    (inTime : ∀ request ∈ eligible, now < request.latestNs)
    (queued : eligible.Subperm queue) :
    ((startEligible slots now eligible queue active rows).1.map (queuedEvents now)).sum +
        ((startEligible slots now eligible queue active rows).2.1.map (activeEvents now)).sum ≤
      (queue.map (queuedEvents now)).sum + (active.map (activeEvents now)).sum := by
  induction eligible generalizing queue active rows with
  | nil => exact le_refl _
  | cons request eligible ih =>
      rw [startEligible]
      split
      · have member : request ∈ queue := queued.subset List.mem_cons_self
        have rest : eligible.Subperm (queue.erase request) := by
          have dropped := queued.erase request
          rwa [List.erase_cons_head] at dropped
        apply le_trans (ih _ _ _ (fun other member => inTime other (List.mem_cons_of_mem _ member))
          rest)
        rw [heapPush_events, erase_events member, queuedEvents,
          if_pos (inTime request List.mem_cons_self)]
        have runs : activeEvents now (now + request.serviceNs.val, request.id) ≤ 1 := by
          unfold activeEvents
          split <;> omega
        omega
      · exact le_refl _

/-- The work of one instant adds no event. -/
theorem turn_pending (slots : Nat) (mode : Scheduler) (state : Replaying) :
    (state.turn slots mode).pending ≤ state.pending := by
  have settled : state.settle.pending = state.pending := by
    simp only [Replaying.pending, Replaying.settle, settleActive_events]
  have released : state.settle.release.pending = state.settle.pending := by
    simp only [Replaying.pending, Replaying.release]
    rw [releaseDue_events]
  have expired : state.settle.release.expire.pending = state.settle.release.pending := by
    simp only [Replaying.pending, Replaying.expire]
    rw [expireQueued_events]
  have started : ∀ before : Replaying, (before.start slots mode).pending ≤ before.pending := by
    intro before
    have events := startEligible_events slots before.now
      (eligibleRequests mode before.now before.queue) before.queue before.active before.rows
      (fun request member => by have := (mem_eligibleRequests.mp member).2; omega)
      ((eligibleRequests_perm before.queue).subperm.trans List.filter_sublist.subperm)
    simp only [Replaying.pending, Replaying.start]
    omega
  calc (state.turn slots mode).pending ≤ state.settle.release.expire.pending := started _
    _ = state.pending := by rw [expired, released, settled]

theorem queuedEvents_mono (later : now ≤ next) (request : ReplayRequest) :
    queuedEvents next request ≤ queuedEvents now request := by
  unfold queuedEvents
  split <;> split <;> omega

theorem upcomingEvents_mono (later : now ≤ next) (request : ReplayRequest) :
    upcomingEvents next request ≤ upcomingEvents now request := by
  have queued := queuedEvents_mono later request
  unfold upcomingEvents
  split <;> split
  · omega
  · omega
  · unfold queuedEvents
    split <;> omega
  · exact queued

theorem activeEvents_mono (later : now ≤ next) (entry : ActiveEntry) :
    activeEvents next entry ≤ activeEvents now entry := by
  unfold activeEvents
  split <;> split <;> omega

/-- What makes an instant one of the next times. -/
theorem mem_nextTimes :
    next ∈ state.nextTimes ↔ state.now < next ∧
      ((∃ request, state.upcoming.head? = some request ∧ request.releaseNs.val = next) ∨
        (∃ entry, state.active.head? = some entry ∧ entry.1 = next) ∨
          (state.queue.map (·.latestNs)).min? = some next) := by
  simp [Replaying.nextTimes, and_comm, @eq_comm _ (some next)]

/-- The jump to a next time leaves fewer events. -/
theorem jump_pending (chosen : next ∈ state.nextTimes) :
    { state with now := next }.pending < state.pending := by
  obtain ⟨later, event⟩ := mem_nextTimes.mp chosen
  have upcoming := List.sum_le_sum fun request (_ : request ∈ state.upcoming) =>
    upcomingEvents_mono (le_of_lt later) request
  have queue := List.sum_le_sum fun request (_ : request ∈ state.queue) =>
    queuedEvents_mono (le_of_lt later) request
  have active := List.sum_le_sum fun entry (_ : entry ∈ state.active) =>
    activeEvents_mono (le_of_lt later) entry
  simp only [Replaying.pending]
  rcases event with ⟨request, head, rfl⟩ | ⟨entry, head, rfl⟩ | least
  · have falls := List.sum_lt_sum (l := state.upcoming) (upcomingEvents request.releaseNs.val)
      (upcomingEvents state.now)
      (fun other _ => upcomingEvents_mono (le_of_lt later) other)
      ⟨request, List.mem_of_head? head, by
        unfold upcomingEvents queuedEvents
        rw [if_neg (lt_irrefl _), if_pos later]
        split <;> omega⟩
    omega
  · have falls := List.sum_lt_sum (l := state.active) (activeEvents entry.1)
      (activeEvents state.now) (fun other _ => activeEvents_mono (le_of_lt later) other)
      ⟨entry, List.mem_of_head? head, by
        unfold activeEvents
        rw [if_neg (lt_irrefl _), if_pos later]
        omega⟩
    omega
  · obtain ⟨request, member, rfl⟩ := List.mem_map.mp (List.min?_mem least)
    have falls := List.sum_lt_sum (l := state.queue) (queuedEvents request.latestNs)
      (queuedEvents state.now) (fun other _ => queuedEvents_mono (le_of_lt later) other)
      ⟨request, member, by
        unfold queuedEvents
        rw [if_neg (lt_irrefl _), if_pos later]
        omega⟩
    omega

end Termination

/-- `while cursor < len(ordered) or queue or active`, with the `break` when
there is no next time. -/
def replayLoop (slots : Nat) (mode : Scheduler) (state : Replaying) : Replaying :=
  if state.unfinished then
    match _chosen : (state.turn slots mode).nextTimes.min? with
    | none => state.turn slots mode
    | some next => replayLoop slots mode { state.turn slots mode with now := next }
  else state
termination_by state.pending
decreasing_by exact (jump_pending (List.min?_mem (by assumption))).trans_le (turn_pending _ _ _)

def Trace.ordered (trace : Trace) : List ReplayRequest :=
  (sortByRank (trace.requests.map fun request =>
    ((⟨[request.releaseNs.val], request.id⟩ : RankKey), request))).map (·.2)

def Replaying.initial (trace : Trace) : Replaying where
  now := 0
  upcoming := trace.ordered
  queue := []
  active := []
  rows := []

/-- The counts of one workload; a state that was never counted counts zero. -/
structure WorkloadCounts where
  workload : Name
  offered : Nat
  states : ReplayState → Nat

/-- `by_workload`, a dictionary by workload. -/
abbrev WorkloadGroups := Keyed.Table Name WorkloadCounts WorkloadCounts.workload

/-- `g["offered"] += 1` and the increment for the state. -/
def WorkloadCounts.add (state : ReplayState) (group : WorkloadCounts) : WorkloadCounts :=
  { group with
    offered := group.offered + 1
    states := fun other => if other = state then group.states other + 1 else group.states other }

/-- `by_workload.setdefault(...)` and the two increments. -/
def countRow (groups : WorkloadGroups) (row : ReplayRecord) : WorkloadGroups :=
  (groups.insertOrIgnore ⟨row.workload, 0, fun _ => 0⟩).update row.workload (·.add row.state)
    fun _ => rfl

structure ReplayReport where
  synthetic : Bool
  provenance : String
  traceFingerprint : Fingerprint Trace
  scheduler : Scheduler
  offered : Nat
  byWorkload : WorkloadGroups
  elapsedVirtualNs : Nat
  records : List ReplayRecord

def replay (trace : Trace) (mode : Scheduler) : ReplayReport :=
  let final := replayLoop trace.slots mode (Replaying.initial trace)
  { synthetic := trace.synthetic
    provenance := trace.provenance
    traceFingerprint := ⟨trace⟩
    scheduler := mode
    offered := final.rows.length
    byWorkload := final.rows.foldl countRow Keyed.Table.empty
    elapsedVirtualNs := final.now
    records := final.rows }

end AgminaRuntime
