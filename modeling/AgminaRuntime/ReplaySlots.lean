import AgminaRuntime.ReplayRuns

/-!
# A replay schedules correctly and ends

Every request gets one record with one outcome, the slots are never
overcommitted, and none of them idles while eligible work waits.
-/

namespace AgminaRuntime

open Greedy

/-- A record tells the outcome of its request. -/
structure ReplayRequest.Recorded (request : ReplayRequest) (record : ReplayRecord) : Prop where
  id : record.id = request.id
  session : record.session = request.session
  workload : record.workload = request.workload
  release : record.releaseNs = request.releaseNs
  capture : record.captureNs = request.captureNs
  latest : record.latestNs = request.latestNs
  outcome : record.state = .completedInTime ∨ record.state = .completedLate ∨
    record.state = .expiredBeforeDispatch
  unstarted : record.startedNs = none →
    record.state = .expiredBeforeDispatch ∧ record.completedNs = none
  started : ∀ began, record.startedNs = some began →
    request.releaseNs.val ≤ began ∧ began + request.profileNs.val < request.latestNs ∧
      record.completedNs = some (began + request.serviceNs.val) ∧
        record.state ≠ .expiredBeforeDispatch ∧
          (record.state = .completedInTime ↔ began + request.serviceNs.val < request.latestNs)

/-- The record occupies a slot at an instant. -/
def ReplayRecord.runsAt (t : Nat) (record : ReplayRecord) : Bool :=
  match record.startedNs, record.completedNs with
  | some started, some completed => decide (started ≤ t ∧ t < completed)
  | _, _ => false

/-- A request that could be started at an instant and has not been yet. -/
def ReplayReport.Waits (report : ReplayReport) (request : ReplayRequest) (t : Nat) : Prop :=
  request.releaseNs.val ≤ t ∧ t < request.latestNs ∧
    t + request.profileNs.val < request.latestNs ∧
      ∀ record ∈ report.records, record.id = request.id →
        ∀ began, record.startedNs = some began → t < began

section Records

variable {trace : Trace} {mode : Scheduler} {request : ReplayRequest} {t : Nat}

theorem finalRecord_recorded (known : request ∈ trace.requests) :
    request.Recorded (trace.finalRecord mode request) := by
  unfold Trace.finalRecord
  cases final : (trace.work mode).finalStart request.id with
  | none => constructor <;> simp [ReplayRecord.expire, ReplayRequest.row]
  | some began =>
      obtain ⟨_, _, released, inTime⟩ := Demand.startsBefore_spec final
      have release := Trace.reading_of_mem (·.releaseNs.val) known
      have latest := Trace.reading_of_mem (·.latestNs) known
      have profile := Trace.reading_of_mem (·.profileNs.val) known
      simp only [Trace.work, release, latest, profile] at released inTime
      constructor
      case outcome =>
        simp only [ReplayRecord.complete]
        split <;> simp
      case started =>
        rintro other same
        simp only [ReplayRecord.complete, ReplayRecord.start, Option.some.injEq] at same
        subst same
        refine ⟨released, inTime, rfl, ?_, ?_⟩
        · simp only [ReplayRecord.complete]
          split <;> simp
        · simp only [ReplayRecord.complete, ReplayRecord.start, ReplayRequest.row]
          by_cases soon : began + request.serviceNs.val < request.latestNs <;> simp [soon]
      all_goals simp [ReplayRecord.complete, ReplayRecord.start, ReplayRequest.row]

theorem finalRecord_runsAt (known : request ∈ trace.requests) :
    (trace.finalRecord mode request).runsAt t =
      (trace.work mode).running (trace.work mode).finalStart t request.id := by
  have service := Trace.reading_of_mem (·.serviceNs.val) known
  unfold Trace.finalRecord Demand.running
  cases (trace.work mode).finalStart request.id with
  | none => rfl
  | some began =>
      simp only [ReplayRecord.runsAt, ReplayRecord.complete, ReplayRecord.start, Trace.work,
        service]

/-- The slots in use, read off the records, are those of the schedule. -/
theorem runsAt_count : (replay trace mode).records.countP (·.runsAt t) =
    (trace.work mode).busy ((trace.work mode).startsBy t) t := by
  rw [replay_records, List.countP_map]
  have readings : trace.ordered.countP ((·.runsAt t) ∘ trace.finalRecord mode) =
      trace.ordered.countP fun request =>
        (trace.work mode).running ((trace.work mode).startsBy t) t request.id := by
    apply List.countP_congr
    intro request known
    rw [Function.comp_apply, finalRecord_runsAt (Trace.mem_ordered.mp known),
      Demand.running_finalStart]
  rw [readings, Trace.ordered_perm.countP_eq]
  unfold Demand.busy Trace.work
  rw [List.countP_map]
  rfl

end Records

/-- The groups count every row once, under its state. -/
structure Counted (groups : WorkloadGroups) (rows : List ReplayRecord) : Prop where
  offered : groups.total WorkloadCounts.offered = rows.length
  states : ∀ group ∈ groups.rows, group.offered =
    group.states .queued + group.states .running + group.states .completedInTime +
      group.states .completedLate + group.states .expiredBeforeDispatch
  occurs : ∀ group ∈ groups.rows, ∀ state, 0 < group.states state →
    ∃ row ∈ rows, row.state = state

section Counts

variable {groups : WorkloadGroups} {rows : List ReplayRecord}

/-- One row raises the counts by one. -/
theorem Counted.add (counted : Counted groups rows) (row : ReplayRecord) :
    Counted (countRow groups row) (rows ++ [row]) := by
  let fresh : WorkloadCounts := ⟨row.workload, 0, fun _ => 0⟩
  let present : WorkloadGroups := groups.insertOrIgnore fresh
  -- a group of the result is an old or a fresh one, with the row added or not
  have origin : ∀ group ∈ (countRow groups row).rows, ∃ old,
      (old ∈ groups.rows ∨ old = fresh) ∧ (group = old ∨ group = old.add row.state) := by
    intro group member
    obtain ⟨old, oldMember, rfl⟩ := List.mem_map.mp member
    refine ⟨old, Keyed.Table.mem_insertOrIgnore oldMember, ?_⟩
    split
    · exact Or.inr rfl
    · exact Or.inl rfl
  constructor
  · have found : present.lookup row.workload =
        some ((groups.lookup row.workload).getD fresh) := by
      rw [Keyed.Table.lookup_insertOrIgnore, if_pos rfl]
    have raised : (countRow groups row).total WorkloadCounts.offered + _ =
        present.total WorkloadCounts.offered + _ :=
      Keyed.Table.total_update WorkloadCounts.offered found
    have kept : present.total WorkloadCounts.offered = groups.total WorkloadCounts.offered :=
      Keyed.Table.total_insertOrIgnore WorkloadCounts.offered rfl
    have before := counted.offered
    have grows : ∀ group : WorkloadCounts, (group.add row.state).offered = group.offered + 1 :=
      fun _ => rfl
    rw [grows] at raised
    rw [List.length_append, List.length_singleton]
    omega
  · intro group member
    obtain ⟨old, source, change⟩ := origin group member
    have balanced : old.offered =
        old.states .queued + old.states .running + old.states .completedInTime +
          old.states .completedLate + old.states .expiredBeforeDispatch := by
      rcases source with known | rfl
      · exact counted.states old known
      · rfl
    rcases change with rfl | rfl
    · exact balanced
    · simp only [WorkloadCounts.add]
      cases row.state <;> simp <;> omega
  · intro group member state positive
    obtain ⟨old, source, change⟩ := origin group member
    have earlier : 0 < old.states state → ∃ other ∈ rows ++ [row], other.state = state := by
      intro counts
      rcases source with known | rfl
      · obtain ⟨other, otherMember, same⟩ := counted.occurs old known state counts
        exact ⟨other, List.mem_append_left _ otherMember, same⟩
      · exact absurd counts (lt_irrefl 0)
    rcases change with rfl | rfl
    · exact earlier positive
    · by_cases own : state = row.state
      · exact ⟨row, List.mem_append_right _ (List.mem_singleton_self row), own.symm⟩
      · simp only [WorkloadCounts.add, if_neg own] at positive
        exact earlier positive

theorem counted_foldl (rest : List ReplayRecord) (counted : Counted groups rows) :
    Counted (rest.foldl countRow groups) (rows ++ rest) := by
  induction rest generalizing groups rows with
  | nil => simpa using counted
  | cons row rest ih =>
      have next := ih (counted.add row)
      rwa [List.append_assoc] at next

end Counts

/-- A replay of any trace under any policy ends with no work left.  It has one
record for each request, with exactly one outcome, started only between its
release and its feasibility limit and completed after its service; at every
instant at most the declared slots are in use, and while fewer are in use no
eligible request waits; the counts by workload add up to the requests. -/
theorem replay_schedules (trace : Trace) (mode : Scheduler) :
    (replayLoop trace.slots mode (Replaying.initial trace)).unfinished = false ∧
    (∃ requests, requests.Perm trace.requests ∧
      List.Forall₂ ReplayRequest.Recorded requests (replay trace mode).records) ∧
    (∀ t, (replay trace mode).records.countP (·.runsAt t) ≤ trace.slots) ∧
    (∀ t, (replay trace mode).records.countP (·.runsAt t) < trace.slots →
      ∀ request ∈ trace.requests, ¬ (replay trace mode).Waits request t) ∧
    (replay trace mode).byWorkload.total WorkloadCounts.offered = trace.requests.length ∧
    (∀ group ∈ (replay trace mode).byWorkload.rows, group.offered =
      group.states .completedInTime + group.states .completedLate +
        group.states .expiredBeforeDispatch) := by
  have initial : trace.TracksAt mode (Replaying.initial trace).now (Replaying.initial trace) :=
    Trace.tracks_initial
  have records := replay_records trace mode
  have counted : Counted (replay trace mode).byWorkload (replay trace mode).records := by
    have empty : Counted (Keyed.Table.empty : WorkloadGroups) [] := by
      constructor <;> simp [Keyed.Table.empty, Keyed.Table.total]
    exact counted_foldl (replay trace mode).records empty
  refine ⟨(replayLoop_done initial).1, ⟨trace.ordered, Trace.ordered_perm, ?_⟩, ?_, ?_, ?_, ?_⟩
  · rw [records, List.forall₂_map_right_iff, List.forall₂_same]
    intro request known
    exact finalRecord_recorded (Trace.mem_ordered.mp known)
  · intro t
    rw [runsAt_count]
    exact Demand.busy_startsBy_le
  · rintro t free request known ⟨released, _, inTime, unstarted⟩
    rw [runsAt_count] at free
    have release := Trace.reading_of_mem (·.releaseNs.val) known
    have latest := Trace.reading_of_mem (·.latestNs) known
    have profile := Trace.reading_of_mem (·.profileNs.val) known
    obtain ⟨began, order, final⟩ : ∃ began ≤ t,
        (trace.work mode).finalStart request.id = some began := by
      apply Demand.started_of_free (List.mem_map_of_mem known) _ _ free
      · simpa only [Trace.work, release] using released
      · simpa only [Trace.work, latest, profile] using inTime
    have listed : trace.finalRecord mode request ∈ (replay trace mode).records := by
      rw [records]
      exact List.mem_map_of_mem (Trace.mem_ordered.mpr known)
    have later := unstarted _ listed (finalRecord_recorded known).id began
      (by simp [Trace.finalRecord, final, ReplayRecord.complete, ReplayRecord.start])
    omega
  · rw [counted.offered, records, List.length_map]
    exact Trace.ordered_perm.length_eq
  · intro group member
    have outcomes : ∀ row ∈ (replay trace mode).records,
        row.state ≠ .queued ∧ row.state ≠ .running := by
      intro row listed
      rw [records] at listed
      obtain ⟨request, known, rfl⟩ := List.mem_map.mp listed
      have recorded : request.Recorded (trace.finalRecord mode request) :=
        finalRecord_recorded (Trace.mem_ordered.mp known)
      have outcome := recorded.outcome
      constructor <;> intro same <;> simp [same] at outcome
    have absent : ∀ state, (state = .queued ∨ state = .running) → group.states state = 0 := by
      intro state unfinished
      by_contra positive
      obtain ⟨row, listed, same⟩ := counted.occurs group member state (Nat.pos_of_ne_zero positive)
      have := outcomes row listed
      rcases unfinished with rfl | rfl
      · exact this.1 same
      · exact this.2 same
    have balanced := counted.states group member
    rw [absent _ (Or.inl rfl), absent _ (Or.inr rfl)] at balanced
    omega

end AgminaRuntime
