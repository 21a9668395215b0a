import AgminaRuntime.ReplaySchedule

/-!
# Whole replays

The loop never skips an event, so at every instant its variables follow from
the starts of the greedy schedule, and it ends only when nothing is left.  The
records of a replay are therefore the requests in the order of their release,
each with its start in the greedy schedule.
-/

namespace AgminaRuntime

open Greedy

/-- One turn of the loop that is followed by another one, or by its end. -/
def Advances (slots : Nat) (mode : Scheduler) (state next : Replaying) : Prop :=
  state.unfinished = true ∧ ∃ instant,
    (state.turn slots mode).nextTimes.min? = some instant ∧
      next = { state.turn slots mode with now := instant }

/-- The states in which a replay enters its loop. -/
def Trace.Reaches (trace : Trace) (mode : Scheduler) (state : Replaying) : Prop :=
  Relation.ReflTransGen (Advances trace.slots mode) (Replaying.initial trace) state

/-- The variables of the loop after everything before an instant. -/
abbrev Trace.TracksAt (trace : Trace) (mode : Scheduler) (instant : Nat) (state : Replaying) :
    Prop :=
  Tracks trace ((trace.work mode).startsBefore instant) instant instant instant state

section Runs

variable {trace : Trace} {mode : Scheduler} {state next : Replaying} {cut later : Nat}

theorem Trace.tracks_initial : trace.TracksAt mode 0 (Replaying.initial trace) := by
  constructor
  · symm
    apply List.filter_eq_self.mpr
    simp
  · simp [Replaying.initial]
  · simp [Replaying.initial, ReplayRequest.entryAt, Demand.startsBefore]
  · exact List.Pairwise.nil
  · simp [Replaying.initial]

section Waiting

variable {start : Starts Name}

/-- No release, completion or expiry is due before an instant. -/
structure Quiescent (state : Replaying) (later : Nat) : Prop where
  release : ∀ request ∈ state.upcoming, later ≤ request.releaseNs.val
  finish : ∀ entry ∈ state.active, later ≤ entry.1
  expiry : ∀ request ∈ state.queue, later ≤ request.latestNs

variable (tracks : Tracks trace start cut cut cut state) (quiet : Quiescent state later)

include tracks quiet

theorem Tracks.releases {request : ReplayRequest} (known : request ∈ trace.ordered) :
    request.releaseNs.val < cut ∨ later ≤ request.releaseNs.val := by
  by_cases early : request.releaseNs.val < cut
  · exact Or.inl early
  · apply Or.inr (quiet.release request _)
    rw [tracks.upcoming, List.mem_filter, decide_eq_true_eq]
    exact ⟨known, by omega⟩

theorem Tracks.finishes {request : ReplayRequest} {began : Nat}
    (known : request ∈ trace.ordered) (started : start request.id = some began) :
    began + request.serviceNs.val < cut ∨ later ≤ began + request.serviceNs.val := by
  by_cases early : began + request.serviceNs.val < cut
  · exact Or.inl early
  · apply Or.inr
    apply quiet.finish (began + request.serviceNs.val, request.id)
    rw [tracks.active.mem_iff, List.mem_filterMap]
    exact ⟨request, known, entryAt_eq_some.mpr ⟨began, started, by omega, rfl⟩⟩

theorem Tracks.expiries {request : ReplayRequest} (known : request ∈ trace.ordered)
    (unstarted : start request.id = none) (early : request.releaseNs.val < cut) :
    request.expiryNs < cut ∨ later ≤ request.expiryNs := by
  by_cases passed : request.expiryNs < cut
  · exact Or.inl passed
  · have queued := tracks.mem_queue.mpr ⟨known, early, unstarted, by omega⟩
    have := quiet.expiry request queued
    right
    unfold ReplayRequest.expiryNs
    omega

/-- The same variables follow at a later instant. -/
theorem Tracks.hold (order : cut ≤ later) : Tracks trace start later later later state := by
  constructor
  · rw [tracks.upcoming]
    apply List.filter_congr
    intro request known
    rw [decide_eq_decide]
    have := tracks.releases quiet known
    omega
  · rw [tracks.queue]
    apply List.filter_congr
    intro request known
    rw [decide_eq_decide]
    have release := tracks.releases quiet known
    constructor
    · rintro ⟨early, unstarted, current⟩
      have := tracks.expiries quiet known unstarted early
      exact ⟨by omega, unstarted, by omega⟩
    · rintro ⟨early, unstarted, current⟩
      exact ⟨by omega, unstarted, by omega⟩
  · apply tracks.active.trans
    apply List.Perm.of_eq
    apply List.filterMap_congr
    intro request known
    unfold ReplayRequest.entryAt
    cases started : start request.id with
    | none => rfl
    | some began =>
        have := tracks.finishes quiet known started
        dsimp only
        by_cases ended : began + request.serviceNs.val < cut
        · rw [if_neg (by omega), if_neg (by omega)]
        · rw [if_pos (by omega), if_pos (by omega)]
  · exact tracks.sorted
  · have sameRequests : trace.ordered.filter (fun request =>
        decide (request.releaseNs.val < cut)) =
        trace.ordered.filter fun request => decide (request.releaseNs.val < later) := by
      apply List.filter_congr
      intro request known
      rw [decide_eq_decide]
      have := tracks.releases quiet known
      omega
    rw [tracks.rows, ← sameRequests]
    apply List.map_congr_left
    intro request member
    obtain ⟨known, early⟩ := List.mem_filter.mp member
    rw [decide_eq_true_eq] at early
    unfold ReplayRequest.recordAt
    cases started : start request.id with
    | none =>
        have := tracks.expiries quiet known started early
        dsimp only
        by_cases passed : request.expiryNs < cut
        · rw [if_pos passed, if_pos (by omega)]
        · rw [if_neg passed, if_neg (by omega)]
    | some began =>
        have := tracks.finishes quiet known started
        dsimp only
        by_cases ended : began + request.serviceNs.val < cut
        · rw [if_pos ended, if_pos (by omega)]
        · rw [if_neg ended, if_neg (by omega)]

end Waiting

/-- While no event lies between two instants, the greedy schedule stands
still. -/
theorem Tracks.quiet_starts (tracks : trace.TracksAt mode (cut + 1) state) (order : cut < later)
    (quiet : Quiescent state later) :
    (trace.work mode).startsBefore later = (trace.work mode).startsBy cut := by
  apply Demand.startsBefore_of_quiet order
  · intro id member
    obtain ⟨request, known, rfl⟩ := List.mem_map.mp member
    have release := Trace.reading_of_mem (·.releaseNs.val) known
    have := tracks.releases quiet (Trace.mem_ordered.mpr known)
    simp only [Trace.work, release]
    omega
  · intro id member began started
    obtain ⟨request, known, rfl⟩ := List.mem_map.mp member
    have service := Trace.reading_of_mem (·.serviceNs.val) known
    have := tracks.finishes quiet (Trace.mem_ordered.mpr known) started
    simp only [Trace.work, service]
    omega

/-- The variables of the loop stand still with it. -/
theorem Tracks.wait (tracks : trace.TracksAt mode (cut + 1) state) (order : cut < later)
    (quiet : Quiescent state later) : trace.TracksAt mode later state := by
  unfold Trace.TracksAt
  rw [tracks.quiet_starts order quiet]
  exact Tracks.hold tracks quiet order

/-- The loop jumps over no event. -/
theorem Tracks.quiescent_of_next (tracks : trace.TracksAt mode (state.now + 1) state)
    (least : ∀ instant ∈ state.nextTimes, later ≤ instant) : Quiescent state later := by
  constructor
  · intro request member
    cases upcoming : state.upcoming with
    | nil => rw [upcoming] at member; contradiction
    | cons head rest =>
        have sorted : state.upcoming.Pairwise fun first second =>
            first.releaseNs.val ≤ second.releaseNs.val := by
          rw [tracks.upcoming]
          exact trace.ordered_sorted.filter _
        have soon : state.now + 1 ≤ head.releaseNs.val := by
          have known : head ∈ state.upcoming := by rw [upcoming]; exact List.mem_cons_self
          rw [tracks.upcoming, List.mem_filter, decide_eq_true_eq] at known
          exact known.2
        have first := least head.releaseNs.val
          (mem_nextTimes.mpr ⟨by omega, Or.inl ⟨head, by rw [upcoming]; rfl, rfl⟩⟩)
        rw [upcoming] at sorted member
        rcases List.mem_cons.mp member with rfl | later
        · exact first
        · exact first.trans ((List.pairwise_cons.mp sorted).1 request later)
  · intro entry member
    cases active : state.active with
    | nil => rw [active] at member; contradiction
    | cons head rest =>
        have sorted := finish_sorted tracks.sorted
        have soon : state.now + 1 ≤ head.1 := by
          have known : head ∈ state.active := by rw [active]; exact List.mem_cons_self
          obtain ⟨_, _, found⟩ := List.mem_filterMap.mp (tracks.active.mem_iff.mp known)
          obtain ⟨_, _, open', shape⟩ := entryAt_eq_some.mp found
          rw [shape]
          exact open'
        have first := least head.1
          (mem_nextTimes.mpr ⟨by omega, Or.inr (Or.inl ⟨head, by rw [active]; rfl, rfl⟩)⟩)
        rw [active] at sorted member
        rcases List.mem_cons.mp member with rfl | later
        · exact first
        · exact first.trans ((List.pairwise_cons.mp sorted).1 entry later)
  · intro request member
    have present : request.latestNs ∈ state.queue.map (·.latestNs) := List.mem_map_of_mem member
    cases found : (state.queue.map (·.latestNs)).min? with
    | none =>
        rw [List.min?_eq_none_iff.mp found] at present
        contradiction
    | some latest =>
        obtain ⟨attained, below⟩ := List.min?_eq_some_iff.mp found
        obtain ⟨other, queued, rfl⟩ := List.mem_map.mp attained
        obtain ⟨_, early, _, current⟩ := tracks.mem_queue.mp queued
        unfold ReplayRequest.expiryNs at current
        have first := least other.latestNs
          (mem_nextTimes.mpr ⟨by omega, Or.inr (Or.inr found)⟩)
        exact first.trans (below request.latestNs present)

/-- Without a next time nothing is left. -/
theorem Tracks.done_of_no_next (tracks : trace.TracksAt mode (state.now + 1) state)
    (none : state.nextTimes.min? = none) : state.unfinished = false := by
  have quiet : ∀ later, Quiescent state later := by
    intro later
    apply tracks.quiescent_of_next
    rw [List.min?_eq_none_iff.mp none]
    intro instant member
    contradiction
  have upcoming : state.upcoming = [] := by
    apply List.eq_nil_iff_forall_not_mem.mpr
    intro request member
    have := (quiet (request.releaseNs.val + 1)).release request member
    omega
  have active : state.active = [] := by
    apply List.eq_nil_iff_forall_not_mem.mpr
    intro entry member
    have := (quiet (entry.1 + 1)).finish entry member
    omega
  have queue : state.queue = [] := by
    apply List.eq_nil_iff_forall_not_mem.mpr
    intro request member
    have := (quiet (request.latestNs + 1)).expiry request member
    omega
  simp [Replaying.unfinished, upcoming, active, queue]

/-- The loop enters its next turn with everything recorded that happened
before. -/
theorem Tracks.advance (tracks : trace.TracksAt mode state.now state)
    (advances : Advances trace.slots mode state next) : trace.TracksAt mode next.now next := by
  obtain ⟨_, instant, least, rfl⟩ := advances
  have turned : trace.TracksAt mode (state.now + 1) (state.turn trace.slots mode) :=
    Tracks.turn tracks
  obtain ⟨chosen, below⟩ := List.min?_eq_some_iff.mp least
  have later : state.now < instant := (mem_nextTimes.mp chosen).1
  have quiet : Quiescent (state.turn trace.slots mode) instant :=
    Tracks.quiescent_of_next turned below
  have waited := Tracks.wait turned later quiet
  exact ⟨waited.upcoming, waited.queue, waited.active, waited.sorted, waited.rows⟩

/-- Whenever a replay enters its loop, its variables follow from the greedy
schedule. -/
theorem Trace.Reaches.tracks (reached : trace.Reaches mode state) :
    trace.TracksAt mode state.now state := by
  induction reached with
  | refl => exact Trace.tracks_initial
  | tail _ advances ih => exact Tracks.advance ih advances

theorem unfinished_of_next (chosen : cut ∈ state.nextTimes) : state.unfinished = true := by
  rw [Replaying.unfinished, Bool.not_eq_true', Bool.eq_false_iff]
  intro done
  simp only [Bool.and_eq_true, List.isEmpty_iff] at done
  obtain ⟨⟨upcoming, queue⟩, active⟩ := done
  obtain ⟨_, event⟩ := mem_nextTimes.mp chosen
  simp [upcoming, queue, active] at event

/-- At every instant some turn of the loop has brought its variables up to
date. -/
theorem Trace.exists_turn {t : Nat} (reached : trace.Reaches mode state)
    (unfinished : state.unfinished = true) (order : state.now ≤ t) :
    ∃ last, trace.Reaches mode last ∧ last.unfinished = true ∧ last.now ≤ t ∧
      trace.TracksAt mode (t + 1) (last.turn trace.slots mode) := by
  -- by induction on the events that are left
  induction events : state.pending using Nat.strong_induction_on generalizing state with
  | h count ih =>
      have turned : trace.TracksAt mode (state.now + 1) (state.turn trace.slots mode) :=
        Tracks.turn reached.tracks
      by_cases jumps : ∃ next ∈ (state.turn trace.slots mode).nextTimes, next ≤ t
      · obtain ⟨early, member, soon⟩ := jumps
        cases least : (state.turn trace.slots mode).nextTimes.min? with
        | none =>
            rw [List.min?_eq_none_iff.mp least] at member
            contradiction
        | some next =>
            obtain ⟨chosen, below⟩ := List.min?_eq_some_iff.mp least
            have fewer := (jump_pending chosen).trans_le
              (turn_pending trace.slots mode state)
            rw [events] at fewer
            have more : (state.turn trace.slots mode).unfinished = true :=
              unfinished_of_next chosen
            exact ih _ fewer (reached.tail ⟨unfinished, next, least, rfl⟩) more
              ((below early member).trans soon) rfl
      · have quiet : Quiescent (state.turn trace.slots mode) (t + 1) := by
          apply Tracks.quiescent_of_next turned
          intro next member
          by_contra soon
          exact jumps ⟨next, member, by omega⟩
        exact ⟨state, reached, unfinished, order, Tracks.wait turned (by omega) quiet⟩

/-- The loop ends with nothing left, and with everything recorded. -/
theorem replayLoop_done (tracks : trace.TracksAt mode state.now state) :
    (replayLoop trace.slots mode state).unfinished = false ∧
      ∃ instant, trace.TracksAt mode instant (replayLoop trace.slots mode state) := by
  induction events : state.pending using Nat.strong_induction_on generalizing state with
  | h count ih =>
      rw [replayLoop]
      split
      · rename_i unfinished
        have turned : trace.TracksAt mode (state.now + 1) (state.turn trace.slots mode) :=
          Tracks.turn tracks
        split
        · rename_i none
          exact ⟨Tracks.done_of_no_next turned none, state.now + 1, turned⟩
        · rename_i next least
          have fewer := (jump_pending (List.min?_mem least)).trans_le
            (turn_pending trace.slots mode state)
          rw [events] at fewer
          exact ih _ fewer (Tracks.advance tracks ⟨unfinished, next, least, rfl⟩) rfl
      · rename_i finished
        exact ⟨by simpa using finished, state.now, tracks⟩

/-- The record of a request in the report. -/
def Trace.finalRecord (trace : Trace) (mode : Scheduler) (request : ReplayRequest) :
    ReplayRecord :=
  match (trace.work mode).finalStart request.id with
  | none => request.row.expire
  | some began => (request.row.start began).complete (began + request.serviceNs.val)

/-- The records of a replay are those of the greedy schedule. -/
theorem replay_records (trace : Trace) (mode : Scheduler) :
    (replay trace mode).records = trace.ordered.map (trace.finalRecord mode) := by
  have initial : trace.TracksAt mode (Replaying.initial trace).now (Replaying.initial trace) :=
    Trace.tracks_initial
  obtain ⟨finished, instant, tracks⟩ := replayLoop_done initial
  change (replayLoop trace.slots mode (Replaying.initial trace)).rows = _
  set final := replayLoop trace.slots mode (Replaying.initial trace)
  simp only [Replaying.unfinished, Bool.not_eq_false', Bool.and_eq_true,
    List.isEmpty_iff] at finished
  obtain ⟨⟨noUpcoming, noQueue⟩, noActive⟩ := finished
  -- with nothing left there is no event, however late
  have quiet : ∀ later, Quiescent final later := by
    intro later
    constructor <;> simp [noUpcoming, noQueue, noActive]
  have released : ∀ request ∈ trace.ordered, request.releaseNs.val < instant := by
    intro request known
    have := tracks.releases (quiet (request.releaseNs.val + 1)) known
    omega
  rw [tracks.rows]
  rw [List.filter_eq_self.mpr (by simpa using released)]
  apply List.map_congr_left
  intro request known
  unfold ReplayRequest.recordAt Trace.finalRecord
  cases started : (trace.work mode).startsBefore instant request.id with
  | some began =>
      have finish := tracks.finishes (quiet (began + request.serviceNs.val + 1)) known started
      obtain ⟨_, _, _, inTime⟩ := Demand.startsBefore_spec started
      have own := Demand.startsBy_of_started started (le_refl began)
      have final : (trace.work mode).finalStart request.id = some began :=
        Demand.startsBefore_mono own (by omega)
      rw [final]
      dsimp only
      rw [if_pos (by omega)]
  | none =>
      have expiry := tracks.expiries (quiet (request.expiryNs + 1)) known started
        (released request known)
      have final : (trace.work mode).finalStart request.id = none := by
        cases begun : (trace.work mode).finalStart request.id with
        | none => rfl
        | some began =>
            have latest := Trace.reading_of_mem (·.latestNs) (Trace.mem_ordered.mp known)
            have before : (trace.work mode).latest request.id ≤ instant := by
              change trace.reading _ _ ≤ _
              rw [latest]
              unfold ReplayRequest.expiryNs at expiry
              omega
            rw [Demand.startsBefore_mono begun before] at started
            contradiction
      rw [final]
      dsimp only
      rw [if_pos (by omega)]

end Runs

end AgminaRuntime
