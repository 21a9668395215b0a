import AgminaRuntime.MirrorTick

/-!
# Submissions, calls and replies of a mirrored run

Each step that the driver takes around the tick moves the stage of exactly one
request: its submission queues the job, the first segment of its task makes
the backend call, and the reply frees its slot.
-/

namespace AgminaRuntime

open Durable Durable.Program Greedy Keyed

variable {trace : Trace} {mirror : Mirror trace} {now : Ns} {stage : Stage} {ledger : Ledger}
  {memory : Coordinator} {request : ReplayRequest}

/-! ## Submission -/

theorem Runtime.orReason_false {reason : Option PyStr} {condition : Prop} [Decidable condition]
    (fails : ¬ condition) (text : PyStr) : orReason reason condition text = reason := by
  rw [orReason, if_neg fails]
  cases reason <;> rfl

/-- Of the checks after the scan only the queue can refuse the job. -/
theorem Manned.admissionReason (manned : Manned mirror now stage memory)
    (known : request ∈ trace.requests) (reason : Option PyStr) (queued superseded : Nat) :
    Runtime.admissionReason memory (mirror.job request) reason queued superseded =
      Runtime.orReason reason ((mirror.config.maxQueue : Int) ≤ (queued : Int) - superseded)
        "queue_capacity" := by
  have network := mirror.network request known
  simp only [Runtime.admissionReason, manned.config, manned.network, manned.backends,
    (mirror.mirrored request known).allowedEndpoints]
  rw [Runtime.orReason_false, Runtime.orReason_false]
  · simp
  · simp only [ne_eq, List.cons_ne_nil, not_false_eq_true, true_and, List.mem_singleton,
      forall_eq, not_and]
    intro offline remote
    rcases network with allowed | mock | backend
    · exact absurd allowed offline
    · exact fun _ => remote mock
    · exact fun absent => absent backend

/-- The job of a request that has not been submitted is not stored. -/
theorem Recorded.absent (recorded : Recorded mirror now stage ledger)
    (known : request ∈ trace.requests) (fresh : ¬ stage.released request.id) :
    ledger.jobs.lookup (mirror.job request).key = none := by
  cases found : ledger.jobs.lookup (mirror.job request).key with
  | none => rfl
  | some row =>
      obtain ⟨other, otherKnown, released, job⟩ := recorded.rows _ row found
      have key : row.key = (mirror.job request).key := Table.key_of_lookup found
      have same : (mirror.job other).key = (mirror.job request).key := by
        rw [← job]
        exact key
      obtain rfl := mirror.eq_of_job otherKnown known (congrArg Prod.snd same)
      exact absurd released fresh

/-- The journal still has room for a request that has not been submitted. -/
theorem Staged.room (staged : Staged mirror now stage ledger memory)
    (known : request ∈ trace.requests) (fresh : ¬ stage.released request.id) :
    ledger.jobs.rows.length < mirror.config.maxJobs := by
  have ids : (ledger.jobs.rows.map fun row => row.job.id).Nodup := by
    apply List.Nodup.of_map (Prod.mk mirror.config.tenant)
    rw [List.map_map]
    convert ledger.jobs.distinct using 1
    apply List.map_congr_left
    intro row member
    exact congrArg (·, row.job.id) (staged.tenants row member).symm
  have outside : request.id ∉ ledger.jobs.rows.map fun row => row.job.id := by
    intro member
    obtain ⟨row, rowMember, same⟩ := List.mem_map.mp member
    obtain ⟨other, otherKnown, released, job⟩ := staged.rows _ row (Table.lookup_of_mem rowMember)
    rw [job, (mirror.mirrored other otherKnown).id] at same
    rw [same] at released
    exact fresh released
  have within : (request.id :: ledger.jobs.rows.map fun row => row.job.id) ⊆
      trace.requests.map (·.id) := by
    intro id member
    rcases List.mem_cons.mp member with rfl | member
    · exact List.mem_map_of_mem known
    · obtain ⟨row, rowMember, rfl⟩ := List.mem_map.mp member
      obtain ⟨other, otherKnown, -, job⟩ := staged.rows _ row (Table.lookup_of_mem rowMember)
      rw [job, (mirror.mirrored other otherKnown).id]
      exact List.mem_map_of_mem otherKnown
  have length := ((List.nodup_cons.mpr ⟨outside, ids⟩).subperm within).length_le
  rw [List.length_cons, List.length_map, List.length_map] at length
  have journal := mirror.journal
  omega

/-- The evidence of a request contradicts nothing that is stored. -/
theorem Recorded.admits (recorded : Recorded mirror now stage ledger)
    (known : request ∈ trace.requests) :
    ∃ observations, Ledger.admitObservations (mirror.job request).tenant
        (mirror.job request).sessionId (mirror.job request).observations
          ledger.observations = .ok observations ∧
      ∀ row ∈ observations.rows, ∃ request ∈ trace.requests,
        row.session = request.session ∧
          ∃ observation ∈ (mirror.job request).observations,
            row.body = observation.toEvidence := by
  have mirrored := mirror.mirrored request known
  obtain ⟨observation, only, -⟩ := mirrored.evidence
  have own : observation ∈ (mirror.job request).observations := by
    rw [only]
    exact List.mem_singleton_self _
  let row : ObservationRow :=
    ⟨(mirror.job request).tenant, (mirror.job request).sessionId, observation.toEvidence⟩
  refine ⟨ledger.observations.insertOrIgnore row, ?_, ?_⟩
  · simp only [only, Ledger.admitObservations]
    cases found : ledger.observations.lookup row.key with
    | none => rfl
    | some previous =>
        obtain ⟨other, otherKnown, session, one, oneOwn, body⟩ :=
          recorded.evidence previous (Table.mem_of_lookup found)
        have key : previous.key = row.key := Table.key_of_lookup found
        have sameSession : other.session = request.session := by
          rw [← session, ← mirrored.session]
          exact congrArg (fun key => key.2.1) key
        have sameId : one.id = observation.id := by
          have ids : previous.body.id = observation.id := congrArg (fun key => key.2.2) key
          rwa [body] at ids
        have same : previous.body = row.body := by
          rw [body]
          exact mirror.evidence other otherKnown request known sameSession one oneOwn observation
            own sameId
        exact if_neg (not_not.mpr same)
  · intro stored member
    rcases Table.mem_insertOrIgnore member with old | rfl
    · exact recorded.evidence stored old
    · exact ⟨request, known, mirrored.session, observation, own, rfl⟩

/-- The job of a request is stored with its receipt. -/
theorem Recorded.submit (recorded : Recorded mirror now stage ledger)
    (known : request ∈ trace.requests) (released : request.releaseNs ≤ now) {receipt : Receipt}
    (stands : stage.Stands now request receipt)
    {observations : Table (Name × Name × Name) ObservationRow ObservationRow.key}
    (evidence : ∀ row ∈ observations.rows, ∃ request ∈ trace.requests,
      row.session = request.session ∧
        ∃ observation ∈ (mirror.job request).observations, row.body = observation.toEvidence)
    {jobs : Table (Name × Name) JobRow JobRow.key}
    (inserted : ledger.jobs.insert? ⟨mirror.job request, receipt⟩ = some jobs) :
    Recorded mirror now (stage.submit request.id)
      { ledger with observations := observations, jobs := jobs } := by
  refine ⟨recorded.quarantined, recorded.sessions, evidence, ?_, ?_, recorded.unattempted⟩
  · intro key row found
    rw [Table.lookup_insert? inserted] at found
    split at found
    · obtain rfl := Option.some.inj found
      exact ⟨request, known, Or.inr rfl, rfl⟩
    · obtain ⟨other, otherKnown, old, job⟩ := recorded.rows key row found
      exact ⟨other, otherKnown, Or.inl old, job⟩
  · intro other otherKnown new
    have lookup : ∀ key, jobs.lookup key =
        if (mirror.job request).key = key then some ⟨mirror.job request, receipt⟩
        else ledger.jobs.lookup key := fun key => Table.lookup_insert? inserted
    by_cases same : other.id = request.id
    · obtain rfl := Trace.eq_of_id otherKnown known same
      exact ⟨released, receipt, (lookup _).trans (if_pos rfl), stands.congr rfl⟩
    · obtain ⟨past, old, stored, otherStands⟩ :=
        recorded.stored other otherKnown (new.resolve_right same)
      refine ⟨past, old, (lookup _).trans ?_, otherStands.congr rfl⟩
      rw [if_neg (Ne.symm (Mirror.key_ne known otherKnown same))]
      exact stored

/-- What the first receipt of a request says. -/
theorem Stage.Stands.initial (unstarted : stage.start request.id = none)
    (mirrored : request.Mirrored mirror.config mirror.clockId (mirror.job request)
      (mirror.endpoint request)) {reason : Option PyStr} (plain : PyStr.Plain reason)
    (refused : ∀ text, reason = some text →
      request.latestNs ≤ request.releaseNs.val ∨ text = "queue_capacity") :
    stage.Stands request.releaseNs request
      (.initial (mirror.job request) (if reason.isSome then .rejected else .queued) reason
        request.releaseNs) where
  job := mirrored.id
  readable := Receipt.readable_initial plain
  submitted := rfl
  started := by
    rw [unstarted]
    rfl
  waits := fun _ => by
    cases reason with
    | none => exact Or.inl rfl
    | some text =>
        rcases refused text rfl with passed | full
        · exact Or.inr (Or.inl passed)
        · exact Or.inr (Or.inr ⟨rfl, by simp [Receipt.initial, full]⟩)
  left := fun started => by
    rw [unstarted] at started
    contradiction

theorem Staged.wp_enqueue (staged : Staged mirror now stage ledger memory)
    (known : request ∈ trace.requests) (fresh : ¬ stage.released request.id)
    (release : request.releaseNs = now) {reason : Option PyStr}
    (stands : stage.Stands now request (.initial (mirror.job request)
      (if reason.isSome then .rejected else .queued) reason now)) :
    Returns (Runtime.enqueue (mirror.job request) now reason [])
      (fun _ => Staged mirror now (stage.submit request.id)) ledger memory := by
  obtain ⟨observations, admitted, evidence⟩ := staged.admits known
  obtain ⟨jobs, inserted⟩ : ∃ jobs, ledger.jobs.insert? ⟨mirror.job request, .initial
      (mirror.job request) (if reason.isSome then .rejected else .queued) reason now⟩ =
        some jobs := by
    apply Option.ne_none_iff_exists'.mp
    rw [Ne, Table.insert?_eq_none_iff, show JobRow.key _ = (mirror.job request).key from rfl,
      staged.absent known fresh]
    simp
  have added : ledger.addJob (mirror.job request) (.initial (mirror.job request)
      (if reason.isSome then .rejected else .queued) reason now) =
        .ok { ledger with observations := observations, jobs := jobs } := by
    simp only [Ledger.addJob, admitted, inserted]
  have submitted : Staged mirror now (stage.submit request.id)
      { ledger with observations := observations, jobs := jobs } memory :=
    ⟨staged.toRecorded.submit known (le_of_eq release) stands evidence inserted,
      ⟨staged.config, staged.clock, staged.awake, staged.network, staged.backends, staged.tasks,
        staged.busy⟩,
      fun other otherKnown occupied =>
        ⟨Or.inl (staged.begun other otherKnown occupied).1,
          (staged.begun other otherKnown occupied).2⟩⟩
  simp only [Runtime.enqueue, wp_bind, Store.addJob, wp_transaction, added, true_and]
  rw [wp_ite]
  split
  · simp only [wp_bind, wp_forEach_nil, wp_event, wp_pure, true_and]
    exact submitted.note _ _
  · simp only [wp_bind, wp_event, wp_pure, true_and]
    exact submitted.note _ _

/-- A request is submitted at its release. -/
theorem Staged.wp_submit (staged : Staged mirror now stage ledger memory)
    (known : request ∈ trace.requests) (fresh : ¬ stage.released request.id)
    (unstarted : stage.start request.id = none) (release : request.releaseNs = now) :
    Returns (Action.submit (mirror.job request).toJobFields).program
      (fun visible after next => visible = .quiet ∧
        Staged mirror now (stage.submit request.id) after next) ledger memory := by
  have mirrored := mirror.mirrored request known
  have tenant : (mirror.job request).tenant = memory.config.tenant := by
    rw [mirrored.tenant, staged.config]
  obtain ⟨contract, registered⟩ := mirrored.registered
  rw [← staged.config] at registered
  obtain ⟨session, sessionFound, invalid⟩ := staged.session known (le_of_eq release)
  have clockId : memory.clock.id = mirror.clockId := by rw [staged.clock]
  have room := staged.room known fresh
  rw [← staged.config] at room
  have absent := staged.absent known fresh
  have readable : ∀ row ∈ Store.selectJobs ledger (mirror.job request).tenant [],
      row.receipt.Readable := fun row member => staged.readable row (List.mem_filter.mp member).1
  simp only [Action.program, Action.quietly, Runtime.submit, wp_bind, wp_readVolatile,
    (mirror.job request).validate_toJobFields]
  rw [if_neg (by simp [staged.awake, tenant])]
  simp only [wp_bind, wp_readDurable, absent, Runtime.submitNew, wp_readVolatile, registered]
  rw [if_neg (by simp)]
  rw [wp_bind, wp_jobs_iff, readRows_ok readable]
  dsimp only
  have bounded := List.length_filter_le (fun row : JobRow => decide
    (row.job.tenant = (mirror.job request).tenant ∧
      (([] : List JobState) = [] ∨ row.receipt.state ∈ ([] : List JobState)))) ledger.jobs.rows
  rw [if_neg (by rw [List.length_map]; unfold Store.selectJobs; omega)]
  simp only [wp_bind, wp_session sessionFound, wp_nowNs, staged.nowNs, clockId, invalid,
    mirrored.independent, wp_forEach_nil, Runtime.scanQueue, mirrored.irreplaceable]
  rw [if_neg (by simp)]
  apply (wp_pure _).mpr
  simp only [wp_bind]
  apply staged.read.wp_jobs mirrored.tenant (by simp)
  intro queued _
  let invalid : Option PyStr := Option.map (fun reason => PyStr.ofString reason.text)
    (if request.latestNs ≤ now.val then some InvalidReason.deadlineOrFreshnessExpired else none) <|>
      none
  rw [staged.toManned.admissionReason known invalid queued.length
    ([] : List (Job × Receipt)).length]
  have plain : PyStr.Plain invalid := by
    unfold invalid
    split
    · exact PyStr.plain_ofString _
    · exact PyStr.plain_none
  apply wp_post (staged.read.wp_enqueue known fresh release _) _ (fun _ _ _ failed => failed)
  · subst release
    apply Stage.Stands.initial unstarted mirrored (orReason_plain _ plain)
    intro text refused
    by_cases passed : request.latestNs ≤ request.releaseNs.val
    · exact Or.inl passed
    · right
      have valid : invalid = none := by
        unfold invalid
        rw [if_neg passed]
        rfl
      rw [valid, Runtime.orReason] at refused
      split at refused
      · exact (Option.some.inj refused).symm
      · contradiction
  · intro _ after next submitted
    exact (wp_pure _).mpr ⟨rfl, submitted⟩

/-! ## The backend call -/

/-- The task of a request that holds a slot. -/
theorem Manned.task (manned : Manned mirror now stage memory) (known : request ∈ trace.requests)
    (occupied : stage.occupied request.id) {phase : Phase}
    (fits : phase = .created ↔ stage.created request.id) :
    ∃ task, memory.task? request.id phase = some task ∧ task ∈ memory.running ∧
      task.job = mirror.job request ∧ task.endpoint = mirror.endpoint request := by
  have owner : ∀ task ∈ memory.running, task.job.id = request.id →
      task.job = mirror.job request ∧ task.endpoint = mirror.endpoint request ∧
        (task.phase = .created ↔ stage.created request.id) := by
    intro task member same
    obtain ⟨other, otherKnown, _, job, endpoint, phase⟩ := manned.tasks task member
    rw [job, (mirror.mirrored other otherKnown).id] at same
    obtain rfl := Trace.eq_of_id otherKnown known same
    exact ⟨job, endpoint, phase⟩
  obtain ⟨task, member, job⟩ := manned.busy request known occupied
  have named : task.job.id = request.id := by
    rw [job, (mirror.mirrored request known).id]
  have inPhase : task.phase = phase := by
    have own := (owner task member named).2.2
    cases taskPhase : task.phase with
    | created => exact (fits.mpr (own.mp taskPhase)).symm
    | awaiting =>
        cases phase with
        | created =>
            rw [own.mpr (fits.mp rfl)] at taskPhase
            contradiction
        | awaiting => rfl
  cases found : memory.task? request.id phase with
  | none =>
      have absent := List.find?_eq_none.mp found task member
      simp [named, inPhase] at absent
  | some other =>
      obtain ⟨otherMember, otherNamed, -⟩ := Coordinator.task?_some found
      obtain ⟨otherJob, otherEndpoint, -⟩ := owner other otherMember otherNamed
      exact ⟨other, rfl, otherMember, otherJob, otherEndpoint⟩

/-- The tasks after the call of one of them. -/
theorem Manned.send (manned : Manned mirror now stage memory) (known : request ∈ trace.requests)
    {task : Task} (job : task.job = mirror.job request) {next : Coordinator}
    (config : next.config = memory.config) (clock : next.clock = memory.clock)
    (closed : next.closed = memory.closed) (network : next.allowNetwork = memory.allowNetwork)
    (backends : next.backends = memory.backends)
    (running : next.running = memory.running.map fun other =>
      if other.job.id = task.job.id then { other with phase := .awaiting } else other) :
    Manned mirror now (stage.send request.id) next := by
  have named : task.job.id = request.id := by
    rw [job, (mirror.mirrored request known).id]
  refine ⟨config.trans manned.config, clock.trans manned.clock, closed.trans manned.awake,
    network.trans manned.network, backends.trans manned.backends, ?_, ?_⟩
  · intro changed member
    rw [running] at member
    obtain ⟨old, oldMember, rfl⟩ := List.mem_map.mp member
    obtain ⟨other, otherKnown, occupied, oldJob, endpoint, phase⟩ := manned.tasks old oldMember
    have oldNamed : old.job.id = other.id := by
      rw [oldJob, (mirror.mirrored other otherKnown).id]
    by_cases same : old.job.id = task.job.id
    · rw [if_pos same]
      refine ⟨other, otherKnown, occupied, oldJob, endpoint, ?_⟩
      simp [Stage.send, ← oldNamed, same, named]
    · rw [if_neg same]
      refine ⟨other, otherKnown, occupied, oldJob, endpoint, phase.trans ?_⟩
      rw [oldNamed, named] at same
      simp [Stage.send, same]
  · intro other otherKnown occupied
    obtain ⟨old, oldMember, oldJob⟩ := manned.busy other otherKnown occupied
    refine ⟨_, by rw [running]; exact List.mem_map_of_mem oldMember, ?_⟩
    split <;> exact oldJob

/-- The pre-send check passes while the request is in time. -/
theorem Staged.wp_startTask (staged : Staged mirror now stage ledger memory)
    (known : request ∈ trace.requests) (occupied : stage.occupied request.id)
    (created : stage.created request.id) (inTime : now.val < request.latestNs) :
    Returns (Action.startTask request.id).program
      (fun visible after next => (∃ task, visible = .inferred task ∧
        task.job = mirror.job request) ∧
          Staged mirror now (stage.send request.id) after next) ledger memory := by
  obtain ⟨task, found, -, job, -⟩ := staged.toManned.task known occupied
    (iff_of_true rfl created)
  obtain ⟨released, -⟩ := staged.begun request known occupied
  obtain ⟨past, -⟩ := staged.stored request known released
  obtain ⟨session, sessionFound, valid⟩ := staged.session known past
  rw [if_neg (by omega)] at valid
  have clockId : memory.clock.id = mirror.clockId := by rw [staged.clock]
  have sessionStored : ledger.sessions.lookup
      ((mirror.job request).tenant, (mirror.job request).sessionId) = some session := sessionFound
  simp only [Action.program, wp_bind, wp_readVolatile, found, Runtime.runStart, wp_tryFinally,
    wp_tryExcept, Runtime.preSend, job, wp_session sessionStored, wp_nowNs, staged.nowNs, clockId,
    valid]
  apply (wp_pure true).mpr
  simp only [not_true_eq_false, decide_false, Bool.false_eq_true, if_false, if_true, wp_bind,
    wp_modifyVolatile, wp_pure]
  have sent : Manned mirror now (stage.send request.id)
      { memory with
        reads := memory.reads + 1
        running := memory.running.map fun other =>
          if other.job.id = task.job.id then { other with phase := .awaiting } else other } :=
    staged.toManned.send known job rfl rfl rfl rfl rfl rfl
  rw [job] at sent
  exact ⟨⟨task, rfl, job⟩, ⟨staged.quarantined, staged.sessions, staged.evidence, staged.rows,
    fun other otherKnown otherReleased => by
      obtain ⟨past, receipt, stored, stands⟩ := staged.stored other otherKnown otherReleased
      exact ⟨past, receipt, stored, stands.congr rfl⟩, staged.unattempted⟩, sent, staged.begun⟩

/-! ## The reply -/

/-- A settled attempt of a started request leaves the stage. -/
theorem Staged.settle (staged : Staged mirror now stage ledger memory)
    (known : request ∈ trace.requests) (started : (stage.start request.id).isSome)
    (actual : Option Ns) :
    Staged mirror now stage (ledger.settleAttempt (mirror.job request).key actual) memory := by
  have untouched : ∀ key, key ≠ (mirror.job request).key →
      (ledger.settleAttempt (mirror.job request).key actual).attempts.lookup key =
        ledger.attempts.lookup key := fun key differs =>
    (ledger.lookup_settleAttempt).trans (if_neg differs)
  exact ⟨staged.toRecorded.of_attempts known started rfl rfl rfl rfl untouched, staged.toManned,
    staged.begun⟩

/-- The slot of a request is free again. -/
theorem Staged.finish (staged : Staged mirror now stage ledger memory)
    (known : request ∈ trace.requests) {task : Task} (job : task.job = mirror.job request) :
    Staged mirror now (stage.finish request.id) ledger (Runtime.releaseSlot task memory) := by
  have named : task.job.id = request.id := by
    rw [job, (mirror.mirrored request known).id]
  refine ⟨⟨staged.quarantined, staged.sessions, staged.evidence, staged.rows, ?_,
    staged.unattempted⟩, ⟨staged.config, staged.clock, staged.awake, staged.network,
      staged.backends, ?_, ?_⟩, fun other otherKnown occupied =>
        staged.begun other otherKnown occupied.1⟩
  · intro other otherKnown released
    obtain ⟨past, receipt, stored, stands⟩ := staged.stored other otherKnown released
    exact ⟨past, receipt, stored, stands.congr rfl⟩
  · intro other member
    obtain ⟨stays, differs⟩ := List.mem_filter.mp member
    obtain ⟨owner, ownerKnown, occupied, otherJob, endpoint, phase⟩ := staged.tasks other stays
    refine ⟨owner, ownerKnown, ⟨occupied, ?_⟩, otherJob, endpoint, phase⟩
    rw [decide_eq_true_eq, named, otherJob, (mirror.mirrored owner ownerKnown).id] at differs
    exact differs
  · intro other otherKnown occupied
    obtain ⟨old, member, oldJob⟩ := staged.busy other otherKnown occupied.1
    refine ⟨old, List.mem_filter.mpr ⟨member, ?_⟩, oldJob⟩
    rw [decide_eq_true_eq, named, oldJob, (mirror.mirrored other otherKnown).id]
    exact occupied.2

/-- The receipt of a started request may be written with the same start. -/
theorem Staged.answer (staged : Staged mirror now stage ledger memory)
    (known : request ∈ trace.requests) {old receipt : Receipt}
    (found : ledger.Stored (mirror.job request, old)) (stands : stage.Stands now request old)
    (started : (stage.start request.id).isSome) (job : receipt.jobId = old.jobId)
    (readable : receipt.Readable) (submitted : receipt.submittedNs = old.submittedNs)
    (sameStart : receipt.startedNs = old.startedNs) (left : receipt.state ≠ .queued) :
    Staged mirror now stage (ledger.writeReceipt (mirror.job request).tenant receipt) memory := by
  have written : stage.Stands now request receipt :=
    { job := job.trans stands.job
      readable := readable
      submitted := submitted.trans stands.submitted
      started := by rw [sameStart]; exact stands.started
      waits := fun unstarted => by rw [unstarted] at started; contradiction
      left := fun _ => left }
  exact ⟨(staged.toRecorded.write known found written rfl (fun _ _ => rfl)
    fun unstarted => unstarted).1, staged.toManned, staged.begun⟩

/-- A failed call whose end is known frees the slot and quarantines nothing. -/
theorem Staged.wp_handleFailure (staged : Staged mirror now stage ledger memory)
    (known : request ∈ trace.requests) {old : Receipt}
    (found : ledger.Stored (mirror.job request, old)) (stands : stage.Stands now request old)
    (started : (stage.start request.id).isSome) {task : Task}
    (job : task.job = mirror.job request) (text : String) :
    Returns (Runtime.handleFailure task (.backendFailure (.new text true false)))
      (fun _ => Staged mirror now stage) ledger memory := by
  have stored : ∀ actual, (ledger.settleAttempt (mirror.job request).key actual).jobs.lookup
      ((mirror.job request).tenant, (mirror.job request).id) =
        some ⟨mirror.job request, old⟩ := fun _ => found
  have left : Runtime.failedState old (.backendFailure (.new text true false)) ≠ .queued := by
    unfold Runtime.failedState
    split
    · exact stands.left started
    · split <;> simp
  let failed : Receipt :=
    { old with
      completedNs := some now
      state := Runtime.failedState old (.backendFailure (.new text true false))
      reason := some (PyStr.ofString text) }
  have readable : failed.Readable := (stands.readable.moved failed.state text).congr rfl rfl rfl
  have answered := (staged.settle known started none).read.answer known (stored none) stands started
    (show failed.jobId = old.jobId from rfl) readable rfl rfl left
  simp only [Runtime.handleFailure, PyExc.endsProcess, Bool.false_eq_true, if_false, wp_bind,
    Runtime.settleFailed, PyExc.notSent, BackendFailure.new, wp_settle, Option.bind_none, job,
    true_and, wp_pure, wp_job (stored none) stands.readable, wp_nowNs, staged.nowNs,
    Runtime.moveTo, Runtime.setState, wp_receipt, wp_event, PyExc.terminationKnown, Bool.or_false,
    if_true]
  exact answered.read.note _ _

/-- The first-content check passes, or fails with a known end. -/
theorem wp_checkFirstContent_started {old : Receipt} {startNs : Ns}
    (started : old.startedNs = some startNs) (result : Prediction)
    {normal : Unit → Ledger → Coordinator → Prop} {raised : PyExc → Ledger → Coordinator → Prop}
    (returns : normal () ledger memory)
    (fails : ∀ text : String, raised (.backendFailure (.new text true false)) ledger memory) :
    wp (Runtime.checkFirstContent old result now) (fun _ _ => True) normal raised ledger
      memory := by
  unfold Runtime.checkFirstContent
  cases result.firstContentNs with
  | none => exact (wp_pure ()).mpr returns
  | some first =>
      simp only [started]
      rw [wp_ite]
      split
      · exact (wp_pure ()).mpr returns
      · exact (wp_raise _).mpr (fails _)

theorem Runtime.completedState_left {old : Receipt} (left : old.state ≠ .queued)
    (invalid : Option InvalidReason) : (completedState old invalid).1 ≠ .queued := by
  unfold completedState
  split
  · exact left
  · cases invalid with
    | none => simp
    | some reason => exact reason.state_ne_queued

/-- A charge that fits the journal settles the attempt. -/
theorem wp_settle_charged {job : Job} {usage : Usage}
    (charge : ∀ cost, usage.costMicrousd = some cost → cost < 2 ^ 63)
    {normal : Unit → Ledger → Coordinator → Prop}
    {raised : PyExc → Ledger → Coordinator → Prop}
    (settled : ∀ actual, normal () (ledger.settleAttempt job.key actual) memory) :
    wp (Store.settle job (some usage)) (fun _ _ => True) normal raised ledger memory := by
  rw [wp_settle]
  cases costEq : usage.costMicrousd with
  | none =>
      simp only [Option.bind_some, costEq]
      exact ⟨trivial, settled none⟩
  | some cost =>
      have bounded : cost < 2 ^ 63 := charge cost costEq
      simp only [Option.bind_some, costEq, dif_pos bounded]
      exact ⟨trivial, settled _⟩

/-- A returned call is delivered, or fails on its first-content instant. -/
theorem Staged.wp_deliver (staged : Staged mirror now stage ledger memory)
    (known : request ∈ trace.requests) {old : Receipt}
    (found : ledger.Stored (mirror.job request, old)) (stands : stage.Stands now request old)
    (started : (stage.start request.id).isSome) {task : Task}
    (job : task.job = mirror.job request) :
    wp (Runtime.deliver task (mirror.reply request)) (fun _ _ => True)
      (fun _ => Staged mirror now stage)
      (fun exception after next => (∃ text : String,
        exception = .backendFailure (.new text true false)) ∧ after = ledger ∧
          Staged mirror now stage after next) ledger memory := by
  obtain ⟨startNs, startEq⟩ : ∃ startNs, old.startedNs = some startNs := by
    have same := stands.started
    cases begun : old.startedNs with
    | none =>
        rw [← same, begun] at started
        contradiction
    | some startNs => exact ⟨startNs, rfl⟩
  obtain ⟨session, sessionFound, -⟩ := staged.sessions request known
  obtain ⟨charge, requestId⟩ := mirror.storable request known
  have stored : ledger.jobs.lookup ((mirror.job request).tenant, (mirror.job request).id) =
      some ⟨mirror.job request, old⟩ := found
  simp only [Runtime.deliver, wp_bind, wp_nowNs, staged.nowNs, job, wp_job stored stands.readable]
  apply wp_checkFirstContent_started startEq
  · -- whatever the charge, the rest of the delivery writes one receipt
    rw [wp_bind]
    apply wp_settle_charged charge
    intro actual
    have settled := (staged.settle known started actual).read
    have sessionStored :
        (ledger.settleAttempt (mirror.job request).key actual).sessions.lookup
          ((mirror.job request).tenant, (mirror.job request).sessionId) = some session :=
      sessionFound
    simp only [wp_bind, wp_session sessionStored, wp_readVolatile, wp_receipt, true_and, startEq]
    have answered := settled.answer known found stands started
      (show (Runtime.completedReceipt old _ _ now (mirror.reply request)).jobId = old.jobId
        from rfl)
      (Runtime.completedReceipt_readable stands.readable
        ((mirror.job request).invalidReason session now memory.clock.id) now charge requestId)
      rfl rfl (Runtime.completedState_left (stands.left started) _)
    apply wp_cachePut
    intro cache _ _
    have cached : Manned mirror now stage
        { memory with reads := memory.reads + 1, cache := cache } :=
      answered.toManned.of_memory rfl rfl rfl rfl rfl rfl
    simp only [wp_event, true_and]
    exact Staged.note ⟨answered.toRecorded, cached, answered.begun⟩ _ _
  · intro text
    exact ⟨⟨text, rfl⟩, rfl, staged.read⟩

/-- A returned call frees its slot, and its receipt keeps its start. -/
theorem Staged.wp_finishTask (staged : Staged mirror now stage ledger memory)
    (known : request ∈ trace.requests) (occupied : stage.occupied request.id)
    (sent : ¬ stage.created request.id) :
    Returns (Action.finishTask request.id (.prediction (mirror.reply request))).program
      (fun visible after next => visible = .quiet ∧
        Staged mirror now (stage.finish request.id) after next) ledger memory := by
  have awaiting : Phase.awaiting = .created ↔ stage.created request.id :=
    iff_of_false (by simp) sent
  obtain ⟨task, taskFound, -, job, -⟩ := staged.toManned.task known occupied awaiting
  obtain ⟨released, started⟩ := staged.begun request known occupied
  obtain ⟨past, old, found, stands⟩ := staged.stored request known released
  simp only [Action.program, wp_bind, wp_readVolatile, taskFound, Action.quietly,
    Runtime.runFinish, wp_tryFinally, wp_tryExcept, Runtime.receive, if_true, wp_pure]
  apply wp_post (staged.wp_deliver known found stands started job)
  · intro _ after next delivered
    exact ⟨trivial, delivered.finish known job⟩
  · rintro _ _ next ⟨⟨text, rfl⟩, rfl, kept⟩
    apply wp_post (kept.wp_handleFailure known found stands started job text) _
      (fun _ _ _ failed => failed)
    intro _ after next failed
    exact ⟨trivial, failed.finish known job⟩

end AgminaRuntime
