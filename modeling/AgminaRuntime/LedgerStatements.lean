import AgminaRuntime.DependencyGate
import AgminaRuntime.CampaignInvariant

/-!
# The statements of the store

Whatever a program writes, it writes by the statements of the store.  A relation
between ledgers that each statement keeps is kept by every commit of every
program, in a run as well as in a crash.  The events that tell of an admission
or a consumption are noted by one program each, so a relation may treat them
apart; a reservation and a reconciled charge are noted in the transaction that
makes them.
-/

namespace AgminaRuntime

open Durable Durable.Program Keyed

/-- The event tells of nothing that a program has just stored. -/
def Event.isRemark : Event → Bool
  | .submitted .. | .attemptReserved .. | .chargeReconciled .. | .consumed .. => false
  | _ => true

/-- Each statement keeps the relation. -/
structure Statements (guarantee : Ledger → Ledger → Prop) : Prop where
  remark : ∀ {kind : Event}, kind.isRemark = true →
    ∀ ledger atNs, guarantee ledger (ledger.note atNs kind)
  putSession : ∀ ledger session, guarantee ledger (ledger.putSession session)
  writeReceipt : ∀ ledger tenant receipt, guarantee ledger (ledger.writeReceipt tenant receipt)
  addJob : ∀ {ledger after : Ledger} {job receipt}, ledger.addJob job receipt = .ok after →
    guarantee ledger after
  reserve : ∀ {ledger after : Ledger} {job endpoint nowNs},
    ledger.reserve job endpoint nowNs = .ok after → guarantee ledger after
  settleAttempt : ∀ ledger key actual, guarantee ledger (ledger.settleAttempt key actual)
  abandonAttempt : ∀ ledger key, guarantee ledger (ledger.abandonAttempt key)
  quarantinePool : ∀ ledger pool reason, guarantee ledger (ledger.quarantinePool pool reason)
  releaseQuarantine : ∀ ledger pool, guarantee ledger (ledger.releaseQuarantine pool)
  bindTenant : ∀ ledger tenant, guarantee ledger (ledger.bindTenant tenant)
  applyCharges : ∀ {before after tenant nowNs charges},
    Store.applyCharges tenant nowNs charges before = .ok after → guarantee before after
  extendCaps : ∀ ledger maxAttempts maxMicrousd, guarantee ledger
    { ledger with caps := { ledger.caps with maxAttempts, maxMicrousd } }

section

variable {guarantee : Ledger → Ledger → Prop} {μ : Type} (statements : Statements guarantee)
include statements

namespace Store

theorem event_emits (atNs : Ns) {kind : Event} (remark : kind.isRemark = true) :
    Emits guarantee (event atNs kind : LedgerProgram μ Unit) :=
  emits_commit fun ledger => statements.remark remark ledger atNs

theorem putSession_emits (session : Session) :
    Emits guarantee (putSession session : LedgerProgram μ Unit) :=
  emits_commit fun ledger => statements.putSession ledger session

theorem receipt_emits (tenant : Name) (new : Receipt) :
    Emits guarantee (receipt tenant new : LedgerProgram μ Unit) :=
  emits_commit fun ledger => statements.writeReceipt ledger tenant new

theorem quarantine_emits (pool : Name) (reason : String) :
    Emits guarantee (quarantine pool reason : LedgerProgram μ Unit) :=
  emits_commit fun ledger => statements.quarantinePool ledger pool reason

theorem settle_emits (job : Job) (usage : Option Usage) :
    Emits guarantee (settle job usage : LedgerProgram μ Unit) := by
  apply emits_transaction
  intro before after settled
  split at settled
  · obtain rfl := Except.ok.inj settled
    exact statements.settleAttempt _ _ _
  · split at settled
    · obtain rfl := Except.ok.inj settled
      exact statements.settleAttempt _ _ _
    · contradiction

theorem reconcileMany_emits (tenant : Name) (entries : List (PyValue × PyValue × PyValue))
    (nowNs : Ns) : Emits guarantee (reconcileMany tenant entries nowNs : LedgerProgram μ Unit) := by
  apply emits_bind (emits_ofExcept _)
  intro charges
  apply emits_bind emits_readDurable
  intro ledger
  apply emits_bind (emits_ofExcept _)
  intro _
  exact emits_transaction fun _ _ applied => statements.applyCharges applied

theorem releasePool_emits (pool : Name) (evidence : PyStr) (nowNs : Ns) :
    Emits guarantee (releasePool pool evidence nowNs : LedgerProgram μ Unit) := by
  unfold releasePool
  split
  · exact emits_raise _
  · apply emits_bind
    · exact emits_commit fun ledger => statements.releaseQuarantine ledger pool
    · exact fun _ => event_emits statements nowNs rfl

theorem extendBudget_emits (maxAttempts maxMicrousd : Int) (approvalRef : PyStr) (nowNs : Ns) :
    Emits guarantee
      (extendBudget maxAttempts maxMicrousd approvalRef nowNs : LedgerProgram μ Unit) := by
  apply emits_bind emits_readDurable
  intro ledger
  split
  · exact emits_raise _
  · apply emits_bind
    · exact emits_commit fun ledger => statements.extendCaps ledger _ _
    · exact fun _ => event_emits statements nowNs rfl

/-! ## Recovery -/

theorem recoverRunning_emits (tenant : Name) (job : Job) (old : Receipt) :
    Emits guarantee (recoverRunning tenant job old : LedgerProgram μ Unit) := by
  unfold recoverRunning
  split
  · apply emits_bind emits_readDurable
    intro ledger
    split
    · exact emits_pure _
    · apply emits_bind (quarantine_emits statements _ _)
      exact fun _ => settle_emits statements job none
  · exact emits_pure _

theorem recoverJob_emits (tenant : Name) (nowNs : Ns) (entry : Job × Receipt) :
    Emits guarantee (recoverJob tenant nowNs entry : LedgerProgram μ Unit) := by
  apply emits_bind (receipt_emits statements _ _)
  intro _
  apply emits_bind (recoverRunning_emits statements _ _ _)
  exact fun _ => event_emits statements nowNs rfl

theorem recoverAttempt_emits (tenant : Name) (nowNs : Ns) (attempt : Attempt) :
    Emits guarantee (recoverAttempt tenant nowNs attempt : LedgerProgram μ Unit) := by
  apply emits_bind (quarantine_emits statements _ _)
  intro _
  apply emits_bind
  · exact emits_commit fun ledger => statements.abandonAttempt ledger _
  · exact fun _ => event_emits statements nowNs rfl

theorem recover_emits (tenant : Name) (nowNs : Ns) :
    Emits guarantee (recover tenant nowNs : LedgerProgram μ Unit) := by
  apply emits_bind (emits_bind emits_readDurable fun _ => emits_ofExcept _)
  intro live
  apply emits_bind (emits_forEach (recoverJob_emits statements tenant nowNs) live)
  intro _
  apply emits_bind emits_readDurable
  intro ledger
  apply emits_bind (emits_forEach (recoverAttempt_emits statements tenant nowNs) _)
  intro _
  apply emits_bind emits_readDurable
  intro ledger
  exact emits_forEach (fun session => putSession_emits statements _) _

end Store

namespace Operation

/-- Offline, every commit keeps the relation. -/
theorem program_emits (operation : Operation) : Emits guarantee operation.program := by
  cases operation with
  | reconcile tenant entries nowNs =>
      exact Store.reconcileMany_emits statements tenant entries nowNs
  | releasePool pool evidence nowNs => exact Store.releasePool_emits statements pool evidence nowNs
  | extendBudget maxAttempts maxMicrousd approvalRef nowNs =>
      exact Store.extendBudget_emits statements maxAttempts maxMicrousd approvalRef nowNs

end Operation

namespace Runtime

omit statements in
theorem job_emits (tenant jobId : Name) :
    Emits guarantee (Store.job tenant jobId : RuntimeProgram (Job × Receipt)) := by
  apply emits_bind emits_readDurable
  intro ledger
  split
  · exact emits_raise _
  · exact emits_ofExcept _

omit statements in
theorem jobs_emits (tenant : Name) (states : List JobState) :
    Emits guarantee (Store.jobs tenant states : RuntimeProgram (List (Job × Receipt))) :=
  emits_bind emits_readDurable fun _ => emits_ofExcept _

theorem noted_emits {kind : Event} (remark : kind.isRemark = true) :
    Emits guarantee (do
      let noted ← nowNs
      Store.event noted kind) :=
  emits_bind nowNs_emits fun noted => Store.event_emits statements noted remark

theorem start_emits : Emits guarantee start := by
  apply emits_bind emits_readVolatile
  intro self
  apply emits_bind
  · apply emits_bind emits_readDurable
    intro ledger
    split
    · exact emits_raise _
    · exact emits_pure _
  intro _
  apply emits_bind
  · apply emits_bind emits_readDurable
    intro ledger
    split
    · exact emits_raise _
    · exact emits_commit fun ledger => statements.bindTenant ledger _
  intro _
  apply emits_bind nowNs_emits
  intro recovered
  apply emits_bind (Store.recover_emits statements _ _)
  exact fun _ => noted_emits statements rfl

theorem setState_emits (job : Job) (receipt : Receipt) (state : JobState) (reason : PyStr) :
    Emits guarantee (setState job receipt state reason) := by
  apply emits_bind (Store.receipt_emits statements _ _)
  intro _
  apply emits_bind nowNs_emits
  intro now
  exact emits_bind (Store.event_emits statements now rfl) fun _ => emits_pure _

theorem moveTo_emits (job : Job) (receipt : Receipt) (state : JobState) (reason : PyStr) :
    Emits guarantee (moveTo job receipt state reason) :=
  emits_bind (setState_emits statements job receipt state reason) fun _ => emits_pure _

theorem expireJob_emits (now : Ns) (entry : Job × Receipt) :
    Emits guarantee (expireJob now entry) := by
  apply emits_bind emits_readVolatile
  intro self
  apply emits_bind (session_emits _ _)
  intro session
  split
  · exact emits_pure _
  · exact moveTo_emits statements _ _ _ _

theorem expire_emits : Emits guarantee expire := by
  apply emits_bind emits_readVolatile
  intro self
  apply emits_bind nowNs_emits
  intro now
  apply emits_bind (jobs_emits _ _)
  exact fun live => emits_forEach (expireJob_emits statements now) live

/-! ## Sessions -/

theorem openSession_emits (sessionId taskRevision : String) :
    Emits guarantee (openSession sessionId taskRevision) := by
  apply emits_bind emits_readVolatile
  intro self
  apply emits_bind nowNs_emits
  intro now
  apply emits_bind emits_readDurable
  intro ledger
  dsimp only
  split
  · exact emits_raise _
  · split
    · apply emits_bind (Store.putSession_emits statements _)
      intro _
      exact emits_bind (Store.event_emits statements now rfl) fun _ => emits_pure _
    · exact emits_raise _

theorem advanceSession_emits (sid : Name) (expectedEpoch : Int) (taskRevision : String)
    (close : Bool) : Emits guarantee (advanceSession sid expectedEpoch taskRevision close) := by
  apply emits_bind emits_readVolatile
  intro self
  apply emits_bind (session_emits _ _)
  intro old
  split
  · exact emits_raise _
  · apply emits_bind nowNs_emits
    intro now
    split
    · apply emits_bind (Store.putSession_emits statements _)
      intro _
      apply emits_bind nowNs_emits
      intro noted
      apply emits_bind (Store.event_emits statements noted rfl)
      intro _
      exact emits_bind (expire_emits statements) fun _ => emits_pure _
    · exact emits_raise _

theorem heartbeat_emits (sid : Name) (expectedEpoch : Int) (bufferUntilNs : Option Int) :
    Emits guarantee (heartbeat sid expectedEpoch bufferUntilNs) := by
  apply emits_bind emits_readVolatile
  intro self
  apply emits_bind (session_emits _ _)
  intro old
  apply emits_bind nowNs_emits
  intro now
  split
  · exact emits_raise _
  · split
    · exact emits_raise _
    · split
      · exact emits_raise _
      · apply emits_bind (Store.putSession_emits statements _)
        intro _
        exact emits_bind (Store.event_emits statements now rfl) fun _ => emits_pure _

/-! ## Submission -/

omit statements in
theorem checkDependency_emits (job : Job) (dependency : Name) :
    Emits guarantee (checkDependency job dependency) := by
  apply emits_bind (job_emits _ _)
  rintro ⟨parent, receipt⟩
  dsimp only
  split
  · exact emits_raise _
  · split
    · exact emits_raise _
    · exact emits_pure _

omit statements in
theorem scanQueue_emits (job : Job) (invalid : Option InvalidReason) :
    Emits guarantee (scanQueue job invalid) := by
  unfold scanQueue
  split
  · apply emits_bind (jobs_emits _ _)
    intro queued
    exact emits_bind (jobs_emits _ _) fun _ => emits_pure _
  · exact emits_pure _

theorem moveAll_emits (state : JobState) (reason : PyStr) (entries : List (Job × Receipt)) :
    Emits guarantee (forEach entries fun entry => moveTo entry.1 entry.2 state reason) := by
  apply emits_forEach
  exact fun entry => moveTo_emits statements entry.1 entry.2 state reason

variable (admission : ∀ ledger atNs jobId sessionId model workload state count request reason,
  guarantee ledger (ledger.note atNs
    (.submitted jobId sessionId model workload state count request reason)))
include admission

theorem enqueue_emits (job : Job) (now : Ns) (reason : Option PyStr)
    (superseded : List (Job × Receipt)) : Emits guarantee (enqueue job now reason superseded) := by
  have noted : ∀ state, Emits guarantee (Store.event now (.submitted job.id job.sessionId job.model
      job.workload state job.observations.length job.fingerprint reason) : RuntimeProgram Unit) :=
    fun _ => emits_commit fun ledger => admission ledger _ _ _ _ _ _ _ _ _
  apply emits_bind
  · exact emits_transaction fun _ _ added => statements.addJob added
  intro _
  dsimp only
  split
  · apply emits_bind
    · exact moveAll_emits statements _ _ superseded
    · exact fun _ => emits_bind (noted _) fun _ => emits_pure _
  · exact emits_bind (noted _) fun _ => emits_pure _

theorem submitNew_emits (job : Job) : Emits guarantee (submitNew job) := by
  apply emits_bind emits_readVolatile
  intro self
  split
  · exact emits_raise _
  · apply emits_bind (jobs_emits _ _)
    intro stored
    split
    · exact emits_raise _
    · apply emits_bind (session_emits _ _)
      intro session
      apply emits_bind nowNs_emits
      intro now
      apply emits_bind (emits_forEach (checkDependency_emits job) _)
      intro _
      apply emits_bind (scanQueue_emits _ _)
      rintro ⟨newer, superseded⟩
      apply emits_bind (jobs_emits _ _)
      exact fun queued => enqueue_emits statements admission _ _ _ _

theorem submit_emits (fields : JobFields) : Emits guarantee (submit fields) := by
  apply emits_bind emits_readVolatile
  intro self
  split
  · exact emits_raise _
  · split
    · exact emits_raise _
    · apply emits_bind emits_readDurable
      intro ledger
      split
      · exact submitNew_emits statements admission _
      · apply emits_bind (emits_ofExcept _)
        rintro ⟨original, receipt⟩
        dsimp only
        split
        · exact emits_raise _
        · exact emits_pure _

omit admission

/-! ## Scheduling -/

theorem rankReady_emits (now : Ns) (entry : Job × Receipt) :
    Emits guarantee (rankReady now entry) := by
  apply emits_bind emits_readVolatile
  intro self
  apply emits_bind
  · exact emits_collect (fun _ => emits_bind (job_emits _ _) fun _ => emits_pure _) _
  intro states
  split
  · exact emits_bind (moveTo_emits statements _ _ _ _) fun _ => emits_pure _
  · split
    · exact emits_pure _
    · apply emits_bind (session_emits _ _)
      intro session
      split
      · exact emits_raise _
      · exact emits_pure _

theorem launch_emits (job : Job) (receipt : Receipt) (endpoint : Endpoint)
    (cacheKey : Option CacheKey) (now : Ns) (latestNs : Int) :
    Emits guarantee (launch job receipt endpoint cacheKey now latestNs) := by
  apply emits_bind (Store.receipt_emits statements _ _)
  intro _
  apply emits_bind (emits_modifyVolatile _)
  intro _
  exact emits_bind (Store.event_emits statements now rfl) fun _ => emits_modifyVolatile _

theorem tryReserve_emits (job : Job) (endpoint : Endpoint) (now : Ns) :
    Emits guarantee (tryReserve job endpoint now) := by
  apply emits_tryExcept
  · apply emits_bind
    · exact emits_transaction fun _ _ reserved => statements.reserve reserved
    · exact fun _ => emits_pure _
  · intro exception
    cases exception with
    | permissionError text => exact emits_pure _
    | _ => exact emits_raise _

theorem dispatchReady_emits (entry : RankKey × Job × Receipt) :
    Emits guarantee (dispatchReady entry) := by
  apply emits_bind emits_readVolatile
  intro self
  apply emits_bind nowNs_emits
  intro now
  apply emits_bind (session_emits _ _)
  intro session
  split
  · exact moveTo_emits statements _ _ _ _
  · split
    · exact emits_raise _
    · apply emits_bind
      · apply emits_bind emits_readVolatile
        intro self
        exact emits_bind (emits_modifyVolatile _) fun _ => emits_pure _
      intro hit
      split
      · apply emits_bind (Store.receipt_emits statements _ _)
        exact fun _ => Store.event_emits statements now rfl
      · apply emits_bind emits_readVolatile
        intro self
        apply emits_bind (emits_bind emits_readDurable fun _ => emits_pure _)
        intro quarantined
        split
        · exact emits_pure _
        · apply emits_bind (tryReserve_emits statements _ _ _)
          intro reserved
          split
          · exact launch_emits statements _ _ _ _ _ _
          · exact moveTo_emits statements _ _ _ _

theorem tick_emits : Emits guarantee tick := by
  apply emits_bind emits_readVolatile
  intro self
  split
  · exact emits_pure _
  · apply emits_bind (expire_emits statements)
    intro _
    apply emits_bind nowNs_emits
    intro now
    apply emits_bind (jobs_emits _ _)
    intro queued
    apply emits_bind (emits_collect (rankReady_emits statements now) queued)
    exact fun ready => emits_forEach (dispatchReady_emits statements) _

/-! ## Tasks -/

theorem settleFailed_emits (job : Job) (exception : PyExc) :
    Emits guarantee (settleFailed job exception) := by
  apply emits_bind (Store.settle_emits statements _ _)
  intro _
  split
  · exact noted_emits statements rfl
  · exact emits_pure _

theorem handleFailure_emits (task : Task) (exception : PyExc) :
    Emits guarantee (handleFailure task exception) := by
  unfold handleFailure
  split
  · exact emits_raise _
  · apply emits_bind (settleFailed_emits statements _ _)
    intro _
    apply emits_bind (job_emits _ _)
    rintro ⟨job, old⟩
    apply emits_bind nowNs_emits
    intro completed
    apply emits_bind (moveTo_emits statements _ _ _ _)
    intro _
    split
    · exact emits_pure _
    · apply emits_bind (Store.quarantine_emits statements _ _)
      exact fun _ => noted_emits statements rfl

theorem preSend_emits (task : Task) : Emits guarantee (preSend task) := by
  apply emits_bind emits_readVolatile
  intro self
  apply emits_bind (session_emits _ _)
  intro current
  apply emits_bind nowNs_emits
  intro now
  split
  · exact emits_pure _
  · apply emits_bind (Store.settle_emits statements _ _)
    intro _
    apply emits_bind (job_emits _ _)
    rintro ⟨job, old⟩
    apply emits_bind (moveTo_emits statements _ _ _ _)
    intro _
    apply emits_bind nowNs_emits
    intro noted
    exact emits_bind (Store.event_emits statements noted rfl) fun _ => emits_pure _

theorem runStart_emits (task : Task) : Emits guarantee (runStart task) := by
  apply emits_bind
  · apply emits_tryFinally
    apply emits_tryExcept (preSend_emits statements task)
    intro exception
    exact emits_bind (handleFailure_emits statements task exception) fun _ => emits_pure _
  · intro sent
    split
    · exact emits_bind (emits_modifyVolatile _) fun _ => emits_pure _
    · exact emits_pure _

omit statements in
theorem cachePut_emits (task : Task) (state : JobState) (result : Prediction) (now : Ns) :
    Emits guarantee (cachePut task state result now) := by
  unfold cachePut
  split
  · exact emits_modifyVolatile _
  · exact emits_pure _

theorem deliver_emits (task : Task) (result : Prediction) :
    Emits guarantee (deliver task result) := by
  apply emits_bind nowNs_emits
  intro now
  apply emits_bind (job_emits _ _)
  rintro ⟨job, old⟩
  apply emits_bind
  · unfold checkFirstContent
    split
    · exact emits_pure _
    · split
      · exact emits_raise _
      · split
        · exact emits_pure _
        · exact emits_raise _
  intro _
  apply emits_bind (Store.settle_emits statements _ _)
  intro _
  apply emits_bind (session_emits _ _)
  intro session
  apply emits_bind emits_readVolatile
  intro self
  apply emits_bind (Store.receipt_emits statements _ _)
  intro _
  apply emits_bind
  · exact cachePut_emits task _ result now
  intro _
  split
  · exact emits_raise _
  · exact Store.event_emits statements now rfl

theorem runFinish_emits (task : Task) (reply : BackendReply) :
    Emits guarantee (runFinish task reply) := by
  apply emits_tryFinally
  apply emits_tryExcept _ (handleFailure_emits statements task)
  cases reply with
  | prediction result => exact deliver_emits statements task result
  | notPrediction => exact emits_raise _
  | raised exception => exact emits_raise _

/-! ## Cancellation, consumption and shutdown -/

theorem cancel_emits (jobId : Name) : Emits guarantee (cancel jobId) := by
  apply emits_bind emits_readVolatile
  intro self
  apply emits_bind (job_emits _ _)
  rintro ⟨job, receipt⟩
  dsimp only
  split
  · exact setState_emits statements _ _ _ _
  · exact emits_pure _

theorem consume_emits (consumption : ∀ ledger atNs jobId consumer age,
    guarantee ledger (ledger.note atNs (.consumed jobId consumer age)))
    (jobId : Name) (consumerId : String) : Emits guarantee (consume jobId consumerId) := by
  apply emits_bind emits_readVolatile
  intro self
  apply emits_bind (job_emits _ _)
  rintro ⟨job, receipt⟩
  apply emits_bind (session_emits _ _)
  intro session
  apply emits_bind nowNs_emits
  intro now
  split
  · exact emits_raise _
  split
  · exact emits_raise _
  split
  · split
    · exact emits_raise _
    · exact emits_pure _
  apply emits_bind nowNs_emits
  intro consumedNs
  split
  · exact emits_raise _
  apply emits_bind (Store.receipt_emits statements _ _)
  intro _
  apply emits_bind nowNs_emits
  intro noted
  apply emits_bind
  · exact emits_collect (fun _ => emits_bind nowNs_emits fun _ => emits_pure _) _
  intro ages
  exact emits_bind (emits_commit fun ledger => consumption ledger _ _ _ _) fun _ => emits_pure _

theorem recordOutcome_emits (jobId : Name) (consumerId outcome evidenceRef : String) :
    Emits guarantee (recordOutcome jobId consumerId outcome evidenceRef) := by
  apply emits_bind
  · apply emits_bind emits_readVolatile
    intro self
    exact emits_bind (job_emits _ _) fun _ => emits_pure _
  · intro receipt
    split
    · exact emits_raise _
    · split
      · exact emits_raise _
      · exact noted_emits statements rfl

theorem beginClose_emits : Emits guarantee beginClose := by
  apply emits_bind emits_readVolatile
  intro self
  split
  · exact emits_pure _
  · apply emits_bind (emits_modifyVolatile _)
    intro _
    apply emits_bind (jobs_emits _ _)
    exact fun queued => moveAll_emits statements _ _ queued

theorem finishClose_emits : Emits guarantee finishClose := by
  apply emits_bind nowNs_emits
  intro now
  apply emits_bind (emits_bind emits_readDurable fun _ => emits_pure _)
  exact fun quarantined => Store.event_emits statements now rfl

end Runtime

namespace Action

omit statements in
theorem quietly_emits {α : Type} {program : RuntimeProgram α} (emits : Emits guarantee program) :
    Emits guarantee (quietly program) :=
  emits_bind emits fun _ => emits_pure _

omit statements in
/-- The step notes the event after it has stored what it tells of. -/
def Records : Action → Event → Prop
  | submit _, .submitted .. => True
  | consume .., .consumed .. => True
  | _, _ => False

/-- Every commit of a live coordinator keeps the relation. -/
theorem program_emits (action : Action) (records : ∀ kind, action.Records kind →
    ∀ ledger atNs, guarantee ledger (ledger.note atNs kind)) :
    Emits guarantee action.program := by
  cases action with
  | openSession sessionId taskRevision =>
      exact quietly_emits (Runtime.openSession_emits statements sessionId taskRevision)
  | advanceSession sid expectedEpoch taskRevision close =>
      exact quietly_emits
        (Runtime.advanceSession_emits statements sid expectedEpoch taskRevision close)
  | heartbeat sid expectedEpoch bufferUntilNs =>
      exact quietly_emits (Runtime.heartbeat_emits statements sid expectedEpoch bufferUntilNs)
  | submit fields =>
      apply quietly_emits (Runtime.submit_emits statements _ fields)
      exact fun ledger atNs _ _ _ _ _ _ _ _ => records (.submitted ..) trivial ledger atNs
  | tick => exact quietly_emits (Runtime.tick_emits statements)
  | startTask jobId =>
      apply emits_bind emits_readVolatile
      intro self
      split
      · exact emits_pure _
      · exact emits_bind (Runtime.runStart_emits statements _) fun _ => emits_pure _
  | finishTask jobId reply =>
      apply emits_bind emits_readVolatile
      intro self
      split
      · exact emits_pure _
      · exact quietly_emits (Runtime.runFinish_emits statements _ reply)
  | cancel jobId => exact quietly_emits (Runtime.cancel_emits statements jobId)
  | consume jobId consumerId =>
      apply emits_bind (Runtime.consume_emits statements _ jobId consumerId)
      · intro receipt
        split
        · exact emits_pure _
        · exact emits_pure _
      · exact fun ledger atNs _ _ _ => records (.consumed ..) trivial ledger atNs
  | recordOutcome jobId consumerId outcome evidenceRef =>
      exact quietly_emits
        (Runtime.recordOutcome_emits statements jobId consumerId outcome evidenceRef)
  | beginClose => exact quietly_emits (Runtime.beginClose_emits statements)
  | finishClose =>
      apply emits_bind emits_readVolatile
      intro self
      split
      · exact emits_bind (Runtime.finishClose_emits statements) fun _ => emits_pure _
      · exact emits_pure _
  | reconcile tenant entries nowNs =>
      apply emits_bind emits_readVolatile
      intro self
      split
      · exact emits_pure _
      · exact quietly_emits (Store.reconcileMany_emits statements tenant entries nowNs)
  | releasePool pool evidence nowNs =>
      exact quietly_emits (Store.releasePool_emits statements pool evidence nowNs)

end Action

namespace CampaignStep

omit statements in
/-- The step of a live coordinator, whole or cut. -/
def action? : CampaignStep → Option Action
  | act action | crash action _ => some action
  | _ => none

end CampaignStep

/-- Every commit of every step keeps the relation. -/
theorem Campaign.step_emits (campaign : Campaign) (label : CampaignStep)
    (records : ∀ action ∈ label.action?, ∀ kind, action.Records kind →
      ∀ ledger atNs, guarantee ledger (ledger.note atNs kind)) :
    List.IsChain guarantee (campaign.ledger :: (campaign.step label).2) := by
  cases label with
  | act action =>
      have emits := action.program_emits statements (records action rfl)
      simp only [step]
      split
      · exact .singleton _
      · exact (emits _ _).1
  | crash action count =>
      have emits := action.program_emits statements (records action rfl)
      simp only [step]
      split
      · exact .singleton _
      · exact isChain_take (emits _ _).1 count
  | start args =>
      simp only [step]
      split
      · exact .singleton _
      · exact (Runtime.start_emits statements _ _).1
  | crashStart args count =>
      simp only [step]
      split
      · exact .singleton _
      · exact isChain_take (Runtime.start_emits statements _ _).1 count
  | operate operation =>
      simp only [step]
      split
      · exact .singleton _
      · exact (operation.program_emits statements _ _).1
  | crashOperate operation count =>
      simp only [step]
      split
      · exact .singleton _
      · exact isChain_take (operation.program_emits statements _ _).1 count

end

end AgminaRuntime
