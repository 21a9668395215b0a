import AgminaRuntime.MirroredRuntime

/-!
# The stages of a mirrored run

A stage says which requests have been submitted, which have been started and
when, which hold a slot, and which still have their task to run.  `Staged`
ties the ledger and the memory of the coordinator to a stage, and says that
nothing else has happened.
-/

namespace AgminaRuntime

open Durable Durable.Program Greedy Keyed

namespace ReplayRequest.Mirrored

variable {request : ReplayRequest} {config : RuntimeConfig} {clockId : Name} {job : Job}
  {endpoint : Endpoint} (mirrored : request.Mirrored config clockId job endpoint)

include mirrored

/-- The job is useful exactly as long as the request. -/
theorem latestNs (session : Session) : job.latestNs session = request.latestNs := by
  obtain ⟨observation, only, role, capture, uncertainty⟩ := mirrored.evidence
  have fixed : job.fixedLatestNs = request.latestNs := by
    simp only [Job.fixedLatestNs, mirrored.kind, mirrored.maxAge, only, mirrored.deadline,
      List.filter_cons, role, decide_true, if_true, List.filter_nil, List.map_cons, List.map_nil,
      List.foldl_cons, List.foldl_nil, Job.ageBound, capture, uncertainty, reduceCtorEq, if_false,
      ReplayRequest.latestNs]
    simp only [Fin.val_zero, Int.natCast_zero, Int.sub_zero]
    omega
  have plain := mirrored.workload
  unfold Job.latestNs
  split
  · contradiction
  · exact fixed

/-- Of the reasons to refuse a job only its latest instant is left. -/
theorem invalidReason {session : Session} (id : session.id = job.sessionId)
    (current : session.Current job clockId) {now : Ns} (released : request.releaseNs ≤ now) :
    job.invalidReason session now clockId =
      if request.latestNs ≤ now.val then some .deadlineOrFreshnessExpired else none := by
  obtain ⟨active, clock, tenant, epoch, revision⟩ := current
  have past : ¬ now < job.snapshotNs :=
    Fin.not_lt.mpr (mirrored.snapshot.trans released)
  unfold Job.invalidReason
  rw [if_neg (by simp [mirrored.clock, clock]), if_neg (by simp [active, tenant, id, epoch, revision]),
    if_neg past, mirrored.latestNs session]
  simp only [Int.ofNat_le]

theorem allowedEndpoints : Runtime.allowedEndpoints config job = [endpoint] := by
  rw [Runtime.allowedEndpoints, mirrored.served, List.filter_cons_of_pos (by simpa using
    mirrored.allowed), List.filter_nil]

theorem known : endpoint ∈ config.endpoints ∧ endpoint.model = job.model := by
  have member : endpoint ∈ config.endpointsOf job.model := by
    rw [mirrored.served]
    exact List.mem_singleton_self _
  simpa using List.mem_filter.mp member

theorem registered : ∃ contract, config.modelContract job.model = some contract := by
  obtain ⟨known, serves⟩ := mirrored.known
  obtain ⟨contract, member, named⟩ := List.mem_map.mp (config.endpointsKnown endpoint known).2
  apply Option.isSome_iff_exists.mp
  rw [RuntimeConfig.modelContract, List.find?_isSome]
  exact ⟨contract, member, by simp [named, serves]⟩

/-- The coordinator ranks the job as the replay ranks the request. -/
theorem candidate (session : Session) {receipt : Receipt}
    (submitted : receipt.submittedNs = request.releaseNs) :
    (⟨job.id, receipt.submittedNs, job.latestNs session, endpoint.estimateNs, job.priority⟩ :
      Candidate) = request.candidate := by
  rw [mirrored.latestNs, mirrored.id, submitted, mirrored.estimate, mirrored.priority]
  rfl

theorem cacheKey (contract : Fingerprint ModelContract) :
    HistoricalCache.key job contract = none := by
  rw [HistoricalCache.key, if_pos (Or.inl (by simp [mirrored.uncached]))]

theorem key : job.key = (config.tenant, request.id) := by
  rw [Job.key, mirrored.tenant, mirrored.id]

end ReplayRequest.Mirrored

namespace Mirror

variable {trace : Trace} (mirror : Mirror trace)

theorem poolSlots : mirror.config.poolSlots mirror.pool.id = trace.slots := by
  rw [RuntimeConfig.poolSlots, mirror.onePool]
  simp [mirror.slots]

variable {request : ReplayRequest} (known : request ∈ trace.requests)

include known

/-- Every endpoint is on the one pool. -/
theorem endpoint_pool : (mirror.endpoint request).pool = mirror.pool.id := by
  have listed := (mirror.config.endpointsKnown _ (mirror.mirrored request known).known.1).1
  simpa [mirror.onePool] using listed

/-- A request is recognised by its job. -/
theorem eq_of_job {other : ReplayRequest} (otherKnown : other ∈ trace.requests)
    (same : (mirror.job request).id = (mirror.job other).id) : request = other := by
  rw [(mirror.mirrored request known).id, (mirror.mirrored other otherKnown).id] at same
  exact Trace.eq_of_id known otherKnown same

end Mirror

/-! ## Stages -/

/-- How far a run has come with each request. -/
structure Stage where
  released : Name → Prop
  start : Starts Name
  occupied : Name → Prop
  created : Name → Prop

namespace Stage

def submit (request : Name) (stage : Stage) : Stage :=
  { stage with released := fun id => stage.released id ∨ id = request }

/-- The items are started at an instant, and their tasks are created. -/
def launch (items : List Name) (now : Nat) (stage : Stage) : Stage :=
  { stage with
    start := fun id => if id ∈ items then some now else stage.start id
    occupied := fun id => stage.occupied id ∨ id ∈ items
    created := fun id => stage.created id ∨ id ∈ items }

def send (request : Name) (stage : Stage) : Stage :=
  { stage with created := fun id => stage.created id ∧ id ≠ request }

def finish (request : Name) (stage : Stage) : Stage :=
  { stage with occupied := fun id => stage.occupied id ∧ id ≠ request }

end Stage

/-- What the receipt of a submitted request says at a stage: a request that is
not started is queued, unless its time has passed or a limit has refused it. -/
structure Stage.Stands (stage : Stage) (now : Ns) (request : ReplayRequest) (receipt : Receipt) :
    Prop where
  job : receipt.jobId = request.id
  readable : receipt.Readable
  submitted : receipt.submittedNs = request.releaseNs
  started : receipt.startedNs.map Fin.val = stage.start request.id
  waits : stage.start request.id = none →
    receipt.state = .queued ∨ request.latestNs ≤ now.val ∨ receipt.Limited
  left : (stage.start request.id).isSome → receipt.state ≠ .queued

/-- The ledger of a mirrored run at a stage. -/
structure Recorded {trace : Trace} (mirror : Mirror trace) (now : Ns) (stage : Stage)
    (ledger : Ledger) : Prop where
  quarantined : ledger.quarantined = []
  sessions : ∀ request ∈ trace.requests, ∃ session,
    ledger.sessions.lookup (mirror.job request).sessionKey = some session ∧
      session.Current (mirror.job request) mirror.clockId
  evidence : ∀ row ∈ ledger.observations.rows, ∃ request ∈ trace.requests,
    row.session = request.session ∧
      ∃ observation ∈ (mirror.job request).observations, row.body = observation.toEvidence
  rows : ∀ key row, ledger.jobs.lookup key = some row → ∃ request ∈ trace.requests,
    stage.released request.id ∧ row.job = mirror.job request
  stored : ∀ request ∈ trace.requests, stage.released request.id →
    request.releaseNs ≤ now ∧ ∃ receipt, ledger.Stored (mirror.job request, receipt) ∧
      stage.Stands now request receipt
  unattempted : ∀ request ∈ trace.requests, stage.start request.id = none →
    ledger.attempts.lookup (mirror.job request).key = none

/-- The memory of a mirrored run at a stage. -/
structure Manned {trace : Trace} (mirror : Mirror trace) (now : Ns) (stage : Stage)
    (memory : Coordinator) : Prop where
  config : memory.config = mirror.config
  clock : memory.clock = ⟨mirror.clockId, fun _ => now⟩
  awake : memory.closed = false
  network : memory.allowNetwork = mirror.allowNetwork
  backends : memory.backends = mirror.backends
  tasks : ∀ task ∈ memory.running, ∃ request ∈ trace.requests,
    stage.occupied request.id ∧ task.job = mirror.job request ∧
      task.endpoint = mirror.endpoint request ∧
        (task.phase = .created ↔ stage.created request.id)
  busy : ∀ request ∈ trace.requests, stage.occupied request.id →
    ∃ task ∈ memory.running, task.job = mirror.job request

/-- A mirrored run at a stage. -/
structure Staged {trace : Trace} (mirror : Mirror trace) (now : Ns) (stage : Stage)
    (ledger : Ledger) (memory : Coordinator) : Prop
    extends Recorded mirror now stage ledger, Manned mirror now stage memory where
  begun : ∀ request ∈ trace.requests, stage.occupied request.id →
    stage.released request.id ∧ (stage.start request.id).isSome

/-! ## What leaves a stage alone -/

section Keeping

variable {trace : Trace} {mirror : Mirror trace} {now : Ns} {stage : Stage} {ledger : Ledger}
  {memory : Coordinator} {request : ReplayRequest}

theorem Stage.Stands.congr {next : Stage} {receipt : Receipt}
    (stands : stage.Stands now request receipt)
    (same : next.start request.id = stage.start request.id) :
    next.Stands now request receipt := by
  constructor
  · exact stands.job
  · exact stands.readable
  · exact stands.submitted
  · rw [same]
    exact stands.started
  · rw [same]
    exact stands.waits
  · rw [same]
    exact stands.left

theorem Recorded.note (recorded : Recorded mirror now stage ledger) (atNs : Ns) (kind : Event) :
    Recorded mirror now stage (ledger.note atNs kind) :=
  ⟨recorded.quarantined, recorded.sessions, recorded.evidence, recorded.rows, recorded.stored,
    recorded.unattempted⟩

/-- The session of a request, and what is left of the reasons to refuse it. -/
theorem Recorded.session (recorded : Recorded mirror now stage ledger)
    (known : request ∈ trace.requests) (released : request.releaseNs ≤ now) :
    ∃ session, ledger.sessions.lookup (mirror.job request).sessionKey = some session ∧
      (mirror.job request).invalidReason session now mirror.clockId =
        if request.latestNs ≤ now.val then some .deadlineOrFreshnessExpired else none := by
  obtain ⟨session, found, current⟩ := recorded.sessions request known
  have named : session.id = (mirror.job request).sessionId :=
    congrArg Prod.snd (Table.key_of_lookup found : session.key = _)
  exact ⟨session, found, (mirror.mirrored request known).invalidReason named current released⟩

theorem Mirror.key_ne {other : ReplayRequest} (known : request ∈ trace.requests)
    (otherKnown : other ∈ trace.requests) (differs : other.id ≠ request.id) :
    (mirror.job other).key ≠ (mirror.job request).key := by
  rw [(mirror.mirrored request known).key, (mirror.mirrored other otherKnown).key]
  simpa using differs

/-- The receipt of one request is written, and the stage moves with it. -/
theorem Recorded.write {next : Stage} {old receipt : Receipt}
    (recorded : Recorded mirror now stage ledger) (known : request ∈ trace.requests)
    (found : ledger.Stored (mirror.job request, old)) (stands : next.Stands now request receipt)
    (released : next.released = stage.released)
    (start : ∀ id, id ≠ request.id → next.start id = stage.start id)
    (kept : next.start request.id = none → stage.start request.id = none) :
    Recorded mirror now next (ledger.writeReceipt (mirror.job request).tenant receipt) ∧
      ledger.SameBut (mirror.job request).key
        (ledger.writeReceipt (mirror.job request).tenant receipt) ∧
      (ledger.writeReceipt (mirror.job request).tenant receipt).Stored
        (mirror.job request, receipt) := by
  let row : JobRow := ⟨mirror.job request, old⟩
  have rowFound : ledger.jobs.lookup row.key = some row := found
  have sameJob : receipt.jobId = row.job.id :=
    stands.job.trans (mirror.mirrored request known).id.symm
  have others : ledger.SameBut (mirror.job request).key
      (ledger.writeReceipt (mirror.job request).tenant receipt) := by
    intro key differs
    have other : key ≠ row.key := differs
    exact Ledger.lookup_writeReceipt_of_ne sameJob other
  have written : (ledger.writeReceipt (mirror.job request).tenant receipt).Stored
      (mirror.job request, receipt) := Ledger.lookup_writeReceipt_self rowFound sameJob
  refine ⟨⟨recorded.quarantined, recorded.sessions, recorded.evidence, ?_, ?_, ?_⟩, others,
    written⟩
  · intro key other otherFound
    rw [released]
    by_cases same : key = (mirror.job request).key
    · rw [same, written, Option.some.injEq] at otherFound
      obtain ⟨_, member, released, job⟩ := recorded.rows _ row rowFound
      exact ⟨_, member, released, by rw [← otherFound]; exact job⟩
    · rw [others key same] at otherFound
      exact recorded.rows key other otherFound
  · intro other otherKnown otherReleased
    rw [released] at otherReleased
    obtain ⟨past, receipt, stored, otherStands⟩ := recorded.stored other otherKnown otherReleased
    refine ⟨past, ?_⟩
    by_cases same : other.id = request.id
    · rw [Trace.eq_of_id otherKnown known same]
      exact ⟨_, written, stands⟩
    · exact ⟨receipt, (others _ (Mirror.key_ne known otherKnown same)).trans stored,
        otherStands.congr (start other.id same)⟩
  · intro other otherKnown unstarted
    apply recorded.unattempted other otherKnown
    by_cases same : other.id = request.id
    · rw [same] at unstarted ⊢
      exact kept unstarted
    · rw [← start other.id same]
      exact unstarted

/-- What the invariant does not look at may change in memory. -/
theorem Manned.of_memory {next : Coordinator} (manned : Manned mirror now stage memory)
    (config : next.config = memory.config) (clock : next.clock = memory.clock)
    (closed : next.closed = memory.closed) (network : next.allowNetwork = memory.allowNetwork)
    (backends : next.backends = memory.backends) (running : next.running = memory.running) :
    Manned mirror now stage next := by
  constructor
  · exact config.trans manned.config
  · exact clock.trans manned.clock
  · exact closed.trans manned.awake
  · exact network.trans manned.network
  · exact backends.trans manned.backends
  · rw [running]
    exact manned.tasks
  · rw [running]
    exact manned.busy

namespace Staged

theorem read (staged : Staged mirror now stage ledger memory) :
    Staged mirror now stage ledger { memory with reads := memory.reads + 1 } :=
  ⟨staged.toRecorded, staged.toManned.of_memory rfl rfl rfl rfl rfl rfl, staged.begun⟩

theorem note (staged : Staged mirror now stage ledger memory) (atNs : Ns) (kind : Event) :
    Staged mirror now stage (ledger.note atNs kind) memory :=
  ⟨staged.toRecorded.note atNs kind, staged.toManned, staged.begun⟩

theorem nowNs (staged : Staged mirror now stage ledger memory) (count : Nat) :
    memory.clock.nowNs count = now := by
  rw [staged.clock]

/-- Stages that agree on the requests of the trace. -/
theorem congr {next : Stage} (staged : Staged mirror now stage ledger memory)
    (released : ∀ request ∈ trace.requests, next.released request.id ↔ stage.released request.id)
    (start : ∀ request ∈ trace.requests, next.start request.id = stage.start request.id)
    (occupied : ∀ request ∈ trace.requests,
      next.occupied request.id ↔ stage.occupied request.id)
    (created : ∀ request ∈ trace.requests, next.created request.id ↔ stage.created request.id) :
    Staged mirror now next ledger memory := by
  refine
    { staged with
      rows := ?_
      stored := ?_
      unattempted := ?_
      tasks := ?_
      busy := ?_
      begun := ?_ }
  · intro key row found
    obtain ⟨request, known, old, job⟩ := staged.rows key row found
    exact ⟨request, known, (released request known).mpr old, job⟩
  · intro request known new
    obtain ⟨past, receipt, stored, stands⟩ :=
      staged.stored request known ((released request known).mp new)
    exact ⟨past, receipt, stored, stands.congr (start request known)⟩
  · intro request known unstarted
    rw [start request known] at unstarted
    exact staged.unattempted request known unstarted
  · intro task member
    obtain ⟨request, known, old, job, endpoint, phase⟩ := staged.tasks task member
    exact ⟨request, known, (occupied request known).mpr old, job, endpoint,
      phase.trans (created request known).symm⟩
  · intro request known new
    exact staged.busy request known ((occupied request known).mp new)
  · intro request known new
    rw [released request known, start request known]
    exact staged.begun request known ((occupied request known).mp new)

/-- The clock is set to a later instant. -/
theorem advance {later : Ns} (staged : Staged mirror now stage ledger memory)
    (order : now ≤ later) : Staged mirror later stage ledger (memory.advanceTo later) := by
  refine
    { staged with
      clock := by rw [Coordinator.advanceTo, staged.clock]
      stored := ?_ }
  intro request known released
  obtain ⟨past, receipt, stored, stands⟩ := staged.stored request known released
  refine ⟨past.trans order, receipt, stored, { stands with waits := ?_ }⟩
  intro unstarted
  rcases stands.waits unstarted with queued | passed | limited
  · exact Or.inl queued
  · exact Or.inr (Or.inl (passed.trans order))
  · exact Or.inr (Or.inr limited)

/-- A receipt moves to a state that the stage allows. -/
theorem wp_moveTo {old : Receipt} {state : JobState} {text : PyStr}
    (staged : Staged mirror now stage ledger memory) (known : request ∈ trace.requests)
    (found : ledger.Stored (mirror.job request, old))
    (stands : stage.Stands now request { old with state := state, reason := some text }) :
    Returns (Runtime.moveTo (mirror.job request) old state text)
      (fun _ after next => Staged mirror now stage after next ∧
        ledger.SameBut (mirror.job request).key after ∧
          after.Stored (mirror.job request, { old with state := state, reason := some text }) ∧
            next = { memory with reads := memory.reads + 1 }) ledger memory := by
  obtain ⟨recorded, others, written⟩ :=
    staged.toRecorded.write known found stands rfl (fun _ _ => rfl) fun unstarted => unstarted
  simp only [Runtime.moveTo, Runtime.setState, wp_bind, wp_receipt, wp_nowNs, wp_event, wp_pure,
    true_and]
  exact ⟨Staged.note ⟨recorded, staged.read.toManned, staged.begun⟩ _ _, others, written, trivial⟩

end Staged

end Keeping

end AgminaRuntime
