import AgminaRuntime.ReplayRuns

/-!
# A replay does not anticipate

What a replay decides up to an instant depends only on the requests released
by then and on the service times that have been observed by then.
-/

namespace AgminaRuntime

open Greedy

/-- The requests differ at most in their service time. -/
def ReplayRequest.SameOffer (first second : ReplayRequest) : Prop :=
  ∃ serviceNs lasting, second = { first with serviceNs, lasting }

namespace Trace

variable (trace : Trace) (mode : Scheduler)

/-- The request is started at an instant. -/
def StartsAt (id : Name) (began : Nat) : Prop :=
  ∃ record ∈ (replay trace mode).records, record.id = id ∧ record.startedNs = some began

/-- The request has completed by an instant. -/
def CompletesBy (id : Name) (t : Nat) : Prop :=
  ∃ record ∈ (replay trace mode).records, record.id = id ∧
    ∃ completed ≤ t, record.completedNs = some completed

/-- Some turn of the loop up to an instant has marked the request as expired
before dispatch. -/
def ExpiresBy (id : Name) (t : Nat) : Prop :=
  ∃ state, trace.Reaches mode state ∧ state.unfinished = true ∧ state.now ≤ t ∧
    ∃ row ∈ (state.turn trace.slots mode).rows,
      row.id = id ∧ row.state = .expiredBeforeDispatch

end Trace

/-- Two traces that look the same up to an instant: they have the same slots
and released the same requests, whose service times differ at most where the
request has not completed by then in either replay. -/
structure Trace.LookAlike (first second : Trace) (mode : Scheduler) (t : Nat) : Prop where
  slots : first.slots = second.slots
  forwards : ∀ request ∈ first.requests, request.releaseNs.val ≤ t →
    ∃ other ∈ second.requests, request.SameOffer other ∧
      (request.serviceNs = other.serviceNs ∨
        ¬ first.CompletesBy mode request.id t ∧ ¬ second.CompletesBy mode request.id t)
  backwards : ∀ other ∈ second.requests, other.releaseNs.val ≤ t →
    ∃ request ∈ first.requests, request.SameOffer other ∧
      (request.serviceNs = other.serviceNs ∨
        ¬ first.CompletesBy mode other.id t ∧ ¬ second.CompletesBy mode other.id t)

section Causality

variable {trace first second : Trace} {mode : Scheduler} {request other : ReplayRequest}
variable {id : Name} {t began : Nat}

theorem ReplayRequest.SameOffer.fields (same : request.SameOffer other) :
    request.id = other.id ∧ request.releaseNs = other.releaseNs ∧
      request.latestNs = other.latestNs ∧ request.profileNs = other.profileNs ∧
        request.candidate = other.candidate := by
  obtain ⟨_, _, rfl⟩ := same
  exact ⟨rfl, rfl, rfl, rfl, rfl⟩

theorem finalRecord_started :
    (trace.finalRecord mode request).startedNs = (trace.work mode).finalStart request.id := by
  unfold Trace.finalRecord
  cases (trace.work mode).finalStart request.id <;> rfl

theorem finalRecord_completed : (trace.finalRecord mode request).completedNs =
    ((trace.work mode).finalStart request.id).map (· + request.serviceNs.val) := by
  unfold Trace.finalRecord
  cases (trace.work mode).finalStart request.id <;> rfl

theorem finalRecord_id : (trace.finalRecord mode request).id = request.id := by
  unfold Trace.finalRecord
  cases (trace.work mode).finalStart request.id <;> rfl

theorem startsAt_iff : trace.StartsAt mode id began ↔
    (trace.work mode).finalStart id = some began := by
  unfold Trace.StartsAt
  simp only [replay_records, List.mem_map]
  constructor
  · rintro ⟨_, ⟨request, _, rfl⟩, same, started⟩
    rw [finalRecord_id] at same
    rwa [finalRecord_started, same] at started
  · intro final
    obtain ⟨request, member, rfl⟩ := List.mem_map.mp (Demand.startsBefore_spec final).1
    exact ⟨_, ⟨request, Trace.mem_ordered.mpr member, rfl⟩, finalRecord_id,
      finalRecord_started.trans final⟩

/-- What has not completed by an instant still runs then, if it was started. -/
theorem not_completesBy (unobserved : ¬ trace.CompletesBy mode id t)
    (final : (trace.work mode).finalStart id = some began) :
    t < began + (trace.work mode).service id := by
  obtain ⟨request, member, rfl⟩ := List.mem_map.mp (Demand.startsBefore_spec final).1
  have service := Trace.reading_of_mem (·.serviceNs.val) member
  simp only [Trace.work, service]
  by_contra early
  apply unobserved
  refine ⟨trace.finalRecord mode request, ?_, finalRecord_id, began + request.serviceNs.val,
    by omega, ?_⟩
  · rw [replay_records]
    exact List.mem_map_of_mem (Trace.mem_ordered.mpr member)
  · rw [finalRecord_completed, final]
    rfl

/-- Nothing completes before its service time is over. -/
theorem service_le_of_completesBy (completes : trace.CompletesBy mode request.id t)
    (known : request ∈ trace.requests) : request.serviceNs.val ≤ t := by
  obtain ⟨record, member, same, completed, order, finish⟩ := completes
  rw [replay_records] at member
  obtain ⟨owner, ownerKnown, rfl⟩ := List.mem_map.mp member
  rw [finalRecord_id] at same
  cases Trace.eq_of_id (Trace.mem_ordered.mp ownerKnown) known same
  rw [finalRecord_completed] at finish
  obtain ⟨began, _, sum⟩ := Option.map_eq_some_iff.mp finish
  omega

/-- A request is marked as expired exactly from its latest useful time on, if
it was not started. -/
theorem expiresBy_iff : trace.ExpiresBy mode id t ↔
    ∃ request ∈ trace.requests, request.id = id ∧ request.expiryNs ≤ t ∧
      (trace.work mode).startsBy t id = none := by
  constructor
  · rintro ⟨state, reached, unfinished, order, row, member, rfl, marked⟩
    have tracks := Tracks.turn reached.tracks
    rw [tracks.rows] at member
    obtain ⟨request, listed, rfl⟩ := List.mem_map.mp member
    have known := Trace.mem_ordered.mp (List.mem_of_mem_filter listed)
    have latest := Trace.reading_of_mem (·.latestNs) known
    rw [recordAt_id]
    unfold ReplayRequest.recordAt at marked
    cases started : (trace.work mode).startsBy state.now request.id with
    | some began =>
        rw [started] at marked
        dsimp only at marked
        split at marked
        · simp only [ReplayRecord.complete] at marked
          split at marked <;> contradiction
        · contradiction
    | none =>
        rw [started] at marked
        dsimp only at marked
        split at marked
        · rename_i passed
          refine ⟨request, known, rfl, by omega, ?_⟩
          cases later : (trace.work mode).startsBy t request.id with
          | none => rfl
          | some began =>
              -- it would have been started before it expired, so before this turn
              obtain ⟨_, _, _, inTime⟩ := Demand.startsBefore_spec later
              simp only [Trace.work, latest] at inTime
              unfold ReplayRequest.expiryNs at passed
              have mine := Demand.startsBy_of_started later
                (show began ≤ state.now by omega)
              rw [started] at mine
              contradiction
        · contradiction
  · rintro ⟨request, known, rfl, passed, unstarted⟩
    have unfinished : (Replaying.initial trace).unfinished = true := by
      have nonempty : trace.ordered ≠ [] := by
        intro empty
        have listed := Trace.mem_ordered.mpr known
        rw [empty] at listed
        contradiction
      simp [Replaying.unfinished, Replaying.initial, nonempty]
    obtain ⟨last, reached, open', order, tracks⟩ :=
      Trace.exists_turn (Relation.ReflTransGen.refl) unfinished (Nat.zero_le t)
    refine ⟨last, reached, open', order,
      request.recordAt ((trace.work mode).startsBy t) (t + 1) (t + 1), ?_, recordAt_id _, ?_⟩
    · rw [tracks.rows]
      apply List.mem_map_of_mem
      rw [List.mem_filter, decide_eq_true_eq]
      unfold ReplayRequest.expiryNs at passed
      exact ⟨Trace.mem_ordered.mpr known, by omega⟩
    · unfold ReplayRequest.recordAt
      rw [unstarted]
      dsimp only
      rw [if_pos (by omega)]
      rfl

/-- Traces that look alike are demands that agree. -/
theorem Trace.LookAlike.agree (alike : first.LookAlike second mode t) :
    Demand.AgreeUpTo (first.work mode) (second.work mode) t := by
  have readings : ∀ id ∈ (first.work mode).items, (first.work mode).release id ≤ t →
      ∃ request ∈ first.requests, ∃ other ∈ second.requests, request.id = id ∧ other.id = id ∧
        request.SameOffer other ∧ (request.serviceNs = other.serviceNs ∨
          ¬ first.CompletesBy mode id t ∧ ¬ second.CompletesBy mode id t) := by
    intro id member released
    obtain ⟨request, known, rfl⟩ := List.mem_map.mp member
    have release := Trace.reading_of_mem (·.releaseNs.val) known
    simp only [Trace.work, release] at released
    obtain ⟨other, present, same, service⟩ := alike.forwards request known released
    exact ⟨request, known, other, present, rfl, same.fields.1.symm, same, service⟩
  constructor
  case slots => exact alike.slots
  case released =>
    intro id
    constructor
    · rintro ⟨member, released⟩
      obtain ⟨request, known, other, present, rfl, sameId, same, _⟩ := readings id member released
      have release := Trace.reading_of_mem (·.releaseNs.val) known
      have otherRelease := Trace.reading_of_mem (·.releaseNs.val) present
      simp only [Trace.work, release] at released
      simp only [Trace.work, ← sameId, otherRelease, ← same.fields.2.1]
      exact ⟨List.mem_map_of_mem present, released⟩
    · rintro ⟨member, released⟩
      obtain ⟨other, present, rfl⟩ := List.mem_map.mp member
      have otherRelease := Trace.reading_of_mem (·.releaseNs.val) present
      simp only [Trace.work, otherRelease] at released
      obtain ⟨request, known, same, _⟩ := alike.backwards other present released
      have release := Trace.reading_of_mem (·.releaseNs.val) known
      simp only [Trace.work, ← same.fields.1, release, same.fields.2.1]
      exact ⟨List.mem_map_of_mem known, released⟩
  case service =>
    intro id member released
    obtain ⟨request, known, other, present, rfl, sameId, _, service⟩ := readings id member released
    rcases service with equal | ⟨mine, theirs⟩
    · left
      have own := Trace.reading_of_mem (·.serviceNs.val) known
      have others := Trace.reading_of_mem (·.serviceNs.val) present
      rw [sameId] at others
      simp only [Trace.work, own, others, equal]
    · right
      intro began
      exact ⟨not_completesBy mine, not_completesBy theirs⟩
  all_goals
    intro id member released
    obtain ⟨request, known, other, present, rfl, sameId, same, _⟩ := readings id member released
    obtain ⟨_, release, latest, profile, candidate⟩ := same.fields
    have mine := fun read => Trace.reading_of_mem read known
    have theirs := fun read => Trace.reading_of_mem read present
    rw [sameId] at theirs
  case release => simp only [Trace.work, mine, theirs, release]
  case latest => simp only [Trace.work, mine, theirs, latest]
  case estimate => simp only [Trace.work, mine, theirs, profile]
  case rank =>
    intro instant
    have own := Trace.request?_of_mem known
    have others := Trace.request?_of_mem present
    rw [sameId] at others
    simp only [Trace.work, Trace.rankAt, own, others, candidate]

theorem ReplayRequest.SameOffer.symm (same : request.SameOffer other) :
    other.SameOffer request := by
  obtain ⟨_, _, rfl⟩ := same
  exact ⟨request.serviceNs, request.lasting, rfl⟩

theorem Trace.LookAlike.symm (alike : first.LookAlike second mode t) :
    second.LookAlike first mode t := by
  constructor
  · exact alike.slots.symm
  · intro other present released
    obtain ⟨request, known, same, service⟩ := alike.backwards other present released
    exact ⟨request, known, same.symm, service.imp Eq.symm And.symm⟩
  · intro request known released
    obtain ⟨other, present, same, service⟩ := alike.forwards request known released
    exact ⟨other, present, same.symm, service.imp Eq.symm And.symm⟩

theorem Trace.LookAlike.expires (alike : first.LookAlike second mode t)
    (expires : first.ExpiresBy mode id t) : second.ExpiresBy mode id t := by
  rw [expiresBy_iff] at expires ⊢
  obtain ⟨request, known, rfl, passed, unstarted⟩ := expires
  have expiry := passed
  unfold ReplayRequest.expiryNs at expiry
  obtain ⟨other, present, same, _⟩ := alike.forwards request known (by omega)
  refine ⟨other, present, same.fields.1.symm, ?_, ?_⟩
  · unfold ReplayRequest.expiryNs
    rw [← same.fields.2.1, ← same.fields.2.2.1]
    exact passed
  · rw [Demand.startsBy, ← alike.agree.startsBefore_eq (le_refl (t + 1))]
    exact unstarted

/-- Two replays of traces that look alike up to an instant decide the same up
to it: the same requests are started at the same times, and the same requests
are expired before dispatch. -/
theorem replay_non_anticipating (alike : first.LookAlike second mode t) :
    (∀ id began, began ≤ t →
      (first.StartsAt mode id began ↔ second.StartsAt mode id began)) ∧
    (∀ id, first.ExpiresBy mode id t ↔ second.ExpiresBy mode id t) := by
  constructor
  · intro id began order
    rw [startsAt_iff, startsAt_iff]
    exact alike.agree.finalStart_iff order
  · intro id
    exact ⟨alike.expires, alike.symm.expires⟩

end Causality

namespace Sample

/-- A request of a stream, released at once. -/
def probe (serviceNs : Ns) (lasting : serviceNs.val ≠ 0) : ReplayRequest where
  id := ⟨"probe", by decide⟩
  session := ⟨"stream", by decide⟩
  workload := ⟨"semantic", by decide⟩
  releaseNs := 0
  captureNs := 0
  deadlineNs := 100
  profileNs := 10
  serviceNs := serviceNs
  priority := 1
  maxAgeNs := 100
  captured := by decide
  timely := by decide
  lasting := lasting

/-- A later request. -/
def followUp : ReplayRequest :=
  { probe 1 (by decide) with
    id := ⟨"later", by decide⟩
    releaseNs := 50
    captured := by decide
    timely := by decide }

def brief : Trace where
  provenance := "brief"
  synthetic := true
  durationNs := 50
  slots := 1
  requests := [probe 10 (by decide)]
  described := by decide
  atLeastOne := by decide
  atMost := by decide
  bounded := by decide
  unique := by decide
  inside := by decide

/-- The probe takes longer than its profile, and more work arrives later. -/
def crowded : Trace :=
  { brief with
    requests := [probe 30 (by decide), followUp]
    bounded := by decide
    unique := by decide
    inside := by decide }

/-- At instant 5 the probe runs in both replays. -/
theorem brief_lookAlike : brief.LookAlike crowded .slack 5 := by
  have first : probe 10 (by decide) ∈ brief.requests := List.mem_singleton_self _
  have second : probe 30 (by decide) ∈ crowded.requests := List.mem_cons_self
  have same : (probe 10 (by decide)).SameOffer (probe 30 (by decide)) := ⟨30, by decide, rfl⟩
  have runs : ¬ brief.CompletesBy .slack (probe 10 (by decide)).id 5 ∧
      ¬ crowded.CompletesBy .slack (probe 30 (by decide)).id 5 := by
    constructor
    · intro completes
      have := service_le_of_completesBy completes first
      contradiction
    · intro completes
      have := service_le_of_completesBy completes second
      contradiction
  constructor
  · rfl
  · intro request known _
    cases List.mem_singleton.mp known
    exact ⟨_, second, same, Or.inr runs⟩
  · intro other present released
    rcases List.mem_cons.mp present with rfl | later
    · exact ⟨_, first, same, Or.inr runs⟩
    · cases List.mem_singleton.mp later
      contradiction

end Sample

theorem replay_non_anticipating_brief :
    (Sample.brief.StartsAt .slack ⟨"probe", by decide⟩ 0 ↔
      Sample.crowded.StartsAt .slack ⟨"probe", by decide⟩ 0) :=
  (replay_non_anticipating Sample.brief_lookAlike).1 _ 0 (by decide)

end AgminaRuntime
