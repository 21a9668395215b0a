import AgminaRuntime.HistoricalCache
import AgminaRuntime.Scheduling
import AgminaRuntime.Store

/-!
# The single-writer inference coordinator

Every public operation of the coordinator, and the two synchronous segments of
the task that `tick` creates: the pre-send check, which ends where the backend
call is awaited, and the completion, which begins with the reply.  The event
loop runs one segment at a time, so between two of them any other operation
may run.
-/

namespace AgminaRuntime

open Durable Durable.Program Keyed

/-- A named clock and its successive readings. -/
structure Clock where
  id : Name
  nowNs : Nat → Ns

/-- A `_run` task has not run yet, or awaits `backend.infer`. -/
inductive Phase
  | created | awaiting
  deriving DecidableEq

/-- An unfinished `_run` task. -/
structure Task where
  job : Job
  endpoint : Endpoint
  cacheKey : Option CacheKey
  phase : Phase
  deriving DecidableEq

/-- What the process keeps in memory. -/
structure Coordinator where
  config : RuntimeConfig
  clock : Clock
  reads : Nat
  cache : HistoricalCache
  poolUse : Name → Int
  endpointUse : Name → Int
  running : List Task
  closed : Bool
  allowNetwork : Bool
  backends : List Name

abbrev RuntimeProgram (α : Type) := LedgerProgram Coordinator α

namespace Runtime

/-- `self.clock.now_ns()`. -/
def nowNs : RuntimeProgram Ns := do
  let self ← readVolatile
  modifyVolatile fun self => { self with reads := self.reads + 1 }
  pure (self.clock.nowNs self.reads)

/-! ## Receipts and expiry -/

/-- `_set`. -/
def setState (job : Job) (receipt : Receipt) (state : JobState) (reason : PyStr) :
    RuntimeProgram Receipt := do
  let updated := { receipt with state := state, reason := some reason }
  Store.receipt job.tenant updated
  let now ← nowNs
  Store.event now (.jobState job.id state reason)
  pure updated

/-- `_set` where the result is not used. -/
def moveTo (job : Job) (receipt : Receipt) (state : JobState) (reason : PyStr) :
    RuntimeProgram Unit := do
  let _ ← setState job receipt state reason
  pure ()

def expireJob (now : Ns) (entry : Job × Receipt) : RuntimeProgram Unit := do
  let (job, receipt) := entry
  let self ← readVolatile
  let session ← Store.session job.tenant job.sessionId
  match job.invalidReason session now self.clock.id with
  | none => pure ()
  -- in-flight work retains its slot until completion or quarantined timeout
  | some reason => moveTo job receipt reason.state reason.text

/-- `_expire`. -/
def expire : RuntimeProgram Unit := do
  let self ← readVolatile
  let now ← nowNs
  let live ← Store.jobs self.config.tenant [.queued, .running]
  forEach live (expireJob now)

/-! ## Sessions -/

/-- The epoch after the stored one, unless it leaves the range of `Ns`. -/
def nextEpoch : Option Session → Option Ns
  | none => some 0
  | some old =>
      if bounded : old.epoch.val + 1 < 2 ^ 63 then some ⟨old.epoch.val + 1, bounded⟩ else none

def openSession (sessionId taskRevision : String) : RuntimeProgram Session := do
  let self ← readVolatile
  let now ← nowNs
  let ledger ← readDurable
  let old := (Name.parse sessionId).bind fun id =>
    ledger.sessions.lookup (self.config.tenant, id)
  if ∃ session ∈ old, session.state = .active then
    raise (.permissionError "Session already active; advance it explicitly")
  else
    match Name.parse sessionId, Name.parse taskRevision, nextEpoch old with
    | some id, some taskRevision, some epoch => do
        let session : Session :=
          ⟨self.config.tenant, id, epoch, taskRevision, self.clock.id, .active, now, none⟩
        Store.putSession session
        Store.event now (.sessionOpened session.id session.epoch)
        pure session
    | _, _, _ => raise (.validationError "Session")

def advanceSession (sid : Name) (expectedEpoch : Int) (taskRevision : String) (close : Bool) :
    RuntimeProgram Session := do
  let self ← readVolatile
  let old ← Store.session self.config.tenant sid
  if (old.epoch.val : Int) ≠ expectedEpoch ∨ old.clockId ≠ self.clock.id ∨ old.state ≠ .active then
    raise (.permissionError "Session compare-and-swap failed")
  else do
    let now ← nowNs
    match Name.parse taskRevision, nextEpoch (some old) with
    | some taskRevision, some epoch => do
        let session : Session :=
          ⟨old.tenant, old.id, epoch, taskRevision, self.clock.id,
            if close then .closed else .active, now, none⟩
        Store.putSession session
        let noted ← nowNs
        Store.event noted (.sessionAdvanced session.id session.epoch)
        expire
        pure session
    | _, _ => raise (.validationError "Session")

def heartbeat (sid : Name) (expectedEpoch : Int) (bufferUntilNs : Option Int) :
    RuntimeProgram Session := do
  let self ← readVolatile
  let old ← Store.session self.config.tenant sid
  let now ← nowNs
  if (old.epoch.val : Int) ≠ expectedEpoch ∨ old.clockId ≠ self.clock.id ∨ old.state ≠ .active then
    raise (.permissionError "Stale heartbeat")
  else if ∃ until_ ∈ bufferUntilNs,
      ¬ ((now.val : Int) ≤ until_ ∧ until_ ≤ now.val + 60000000000) then
    raise (.valueError "Advisory buffer time must be within 60 seconds")
  else if ∃ until_ ∈ bufferUntilNs, (2 : Int) ^ 63 ≤ until_ then
    raise (.validationError "Session")
  else do
    let buffer := bufferUntilNs.map fun until_ => Fin.ofNat (2 ^ 63) until_.toNat
    let session := { old with updatedNs := now, bufferUntilNs := buffer }
    Store.putSession session
    Store.event now (.bufferObserved sid session.epoch buffer)
    pure session

/-! ## Submission -/

/-- A dependency must be stored, of the job's generation, and its evidence must
be declared again. -/
def checkDependency (job : Job) (dependency : Name) : RuntimeProgram Unit := do
  let (parent, _) ← Store.job job.tenant dependency
  if (parent.sessionId, parent.epoch, parent.taskRevision) ≠
      (job.sessionId, job.epoch, job.taskRevision) then
    raise (.permissionError "Dependency crosses task/session generation")
  else if ¬ ∀ o ∈ parent.observations,
      o.sourceFingerprint ∈ job.observations.map Observation.sourceFingerprint then
    raise (.permissionError "Dependency source lineage omitted")
  else pure ()

/-- Two jobs compete for one latest-only slot. -/
def sameGroup (first second : Job) : Bool :=
  (first.sessionId, first.epoch, first.taskRevision, first.replaceKey, first.model,
    first.operation) =
    (second.sessionId, second.epoch, second.taskRevision, second.replaceKey, second.model,
      second.operation)

/-- Some job of the list depends on `job`. -/
def hasChild (job : Job) (jobs : List (Job × Receipt)) : Bool :=
  jobs.any fun child => job.id ∈ child.1.dependencies

/-- The scan of the queue for members of the job's group: a rejection when one
is not older, and the older members that no live job depends on. -/
def scanGroup (job : Job) (live : List (Job × Receipt)) :
    List (Job × Receipt) → Option PyStr × List (Job × Receipt)
  | [] => (none, [])
  | (previous, receipt) :: rest =>
      let (reason, superseded) := scanGroup job live rest
      if sameGroup previous job then
        -- do not replace a newer semantic snapshot with late old work
        if job.snapshotNs ≤ previous.snapshotNs then
          (some "superseded_by_newer_snapshot", superseded)
        else if hasChild previous live then (reason, superseded)
        else (reason, (previous, receipt) :: superseded)
      else (reason, superseded)

/-- The scan runs only for a valid job with a replacement key. -/
def scanQueue (job : Job) (invalid : Option InvalidReason) :
    RuntimeProgram (Option PyStr × List (Job × Receipt)) := do
  if job.replaceKey.isSome ∧ invalid = none then do
    let queued ← Store.jobs job.tenant [.queued]
    let live ← Store.jobs job.tenant [.queued, .running]
    pure (scanGroup job live queued)
  else pure (none, [])

/-- The endpoints that serve the job's model at a site it allows. -/
def allowedEndpoints (config : RuntimeConfig) (job : Job) : List Endpoint :=
  (config.endpointsOf job.model).filter fun endpoint => endpoint.site ∈ job.allowedSites

/-- `reason or text` where `condition` holds, else `reason`. -/
def orReason (reason : Option PyStr) (condition : Prop) [Decidable condition] (text : PyStr) :
    Option PyStr :=
  reason <|> if condition then some text else none

/-- The three rejections after the scan, each only when no reason stands yet. -/
def admissionReason (self : Coordinator) (job : Job) (reason : Option PyStr)
    (queued superseded : Nat) : Option PyStr :=
  let endpoints := allowedEndpoints self.config job
  let reason :=
    orReason reason ((self.config.maxQueue : Int) ≤ (queued : Int) - superseded) "queue_capacity"
  let reason := orReason reason (endpoints = []) "no_allowed_endpoint"
  orReason reason
    (endpoints ≠ [] ∧ ¬ self.allowNetwork ∧
      ∀ endpoint ∈ endpoints, endpoint.kind ≠ .mock ∧ endpoint.id ∉ self.backends)
    "network_not_authorized"

/-- The end of `submit`: the job is stored with its receipt, and an admitted one
replaces the superseded jobs. -/
def enqueue (job : Job) (now : Ns) (reason : Option PyStr) (superseded : List (Job × Receipt)) :
    RuntimeProgram Receipt := do
  let receipt := Receipt.initial job (if reason.isSome then .rejected else .queued) reason now
  Store.addJob job receipt
  if reason = none then
    forEach superseded fun (previous, old) =>
      moveTo previous old .superseded "explicit_latest_only_replacement"
  else pure ()
  Store.event now (.submitted job.id job.sessionId job.model job.workload receipt.state
    job.observations.length job.fingerprint reason)
  pure receipt

/-- `submit` for a job whose identifier is new. -/
def submitNew (job : Job) : RuntimeProgram Receipt := do
  let self ← readVolatile
  if self.config.modelContract job.model = none then
    raise (.valueError "Unregistered model contract")
  else do
    let stored ← Store.jobs job.tenant []
    if self.config.maxJobs ≤ stored.length then
      raise (.permissionError
        "Journal job admission capacity reached; retain/archive this campaign")
    else do
      let session ← Store.session job.tenant job.sessionId
      let now ← nowNs
      let invalid := job.invalidReason session now self.clock.id
      forEach job.dependencies (checkDependency job)
      let (newer, superseded) ← scanQueue job invalid
      let queued ← Store.jobs job.tenant [.queued]
      let reason := admissionReason self job
        ((invalid.map fun reason => PyStr.ofString reason.text) <|> newer)
        queued.length superseded.length
      enqueue job now reason superseded

def submit (fields : JobFields) : RuntimeProgram Receipt := do
  let self ← readVolatile
  match fields.validate with
  | .error text => raise (.validationError text)
  | .ok job =>
      if self.closed ∨ job.tenant ≠ self.config.tenant then
        raise (.permissionError "Closed runtime or foreign tenant")
      else do
        let ledger ← readDurable
        match ledger.jobs.lookup job.key with
        | none => submitNew job
        | some row => do
            let (original, receipt) ← ofExcept (Store.readRow row)
            if original.fingerprint ≠ job.fingerprint then
              raise (.valueError "Idempotency ID reused for different work")
            else pure receipt

/-! ## Scheduling -/

/-- The state of every dependency of a job, read now. -/
def dependencyStates (job : Job) : RuntimeProgram (List JobState) :=
  collect job.dependencies fun dependency => do
    let (_, receipt) ← Store.job job.tenant dependency
    pure (some receipt.state)

/-- The first loop of `tick`: a failed dependency rejects, an unfinished one
postpones, and a ready job is ranked. -/
def rankReady (now : Ns) (entry : Job × Receipt) :
    RuntimeProgram (Option (RankKey × Job × Receipt)) := do
  let (job, receipt) := entry
  let self ← readVolatile
  let states ← dependencyStates job
  if ∃ state ∈ states, state ∉ [JobState.queued, .running, .succeeded, .consumed] then do
    moveTo job receipt .rejected "dependency_failed"
    pure none
  else if ∃ state ∈ states, state ∉ [JobState.succeeded, .consumed] then
    pure none
  else do
    let session ← Store.session job.tenant job.sessionId
    match ((allowedEndpoints self.config job).map Endpoint.estimateNs).min? with
    | none => raise (.valueError "min() iterable argument is empty")
    | some estimate =>
        let candidate : Candidate :=
          ⟨job.id, receipt.submittedNs, job.latestNs session, estimate, job.priority⟩
        pure (some (rank candidate now.val self.config.scheduler, job, receipt))

/-- A cached result is delivered without an attempt. -/
def deliverCached (job : Job) (receipt : Receipt) (now : Ns) (payload : String)
    (computedNs : Ns) : RuntimeProgram Unit := do
  Store.receipt job.tenant
    { receipt with
      state := .succeeded
      predictionJson := some payload
      completedNs := some now
      computedNs := some computedNs
      cacheHit := true
      usage := some (Usage.ofCost 0) }
  Store.event now (.cacheHit job.id computedNs)

/-- Add one to a counter. -/
def increment (use : Name → Int) (name : Name) : Name → Int :=
  Function.update use name (use name + 1)

/-- Take one off a counter. -/
def decrement (use : Name → Int) (name : Name) : Name → Int :=
  Function.update use name (use name - 1)

/-- The dispatch after a committed reservation: the RUNNING receipt, the two
slot counters, and the task. -/
def launch (job : Job) (receipt : Receipt) (endpoint : Endpoint) (cacheKey : Option CacheKey)
    (now : Ns) (latestNs : Int) : RuntimeProgram Unit := do
  Store.receipt job.tenant
    { receipt with
      state := .running
      endpoint := some endpoint.id
      startedNs := some now }
  modifyVolatile fun self =>
    { self with
      poolUse := increment self.poolUse endpoint.pool
      endpointUse := increment self.endpointUse endpoint.id }
  Store.event now (.dispatched job.id endpoint.id endpoint.pool endpoint.estimateNs latestNs)
  modifyVolatile fun self =>
    { self with running := self.running ++ [⟨job, endpoint, cacheKey, .created⟩] }

/-- `self.store.reserve`, whose `PermissionError` alone is caught. -/
def tryReserve (job : Job) (endpoint : Endpoint) (now : Ns) : RuntimeProgram Bool :=
  tryExcept
    (do
      Store.reserve job endpoint now
      pure true)
    fun exception =>
      match exception with
      | .permissionError _ => pure false
      | other => raise other

/-- The choice of an endpoint and the dispatch to it. -/
def dispatch (job : Job) (receipt : Receipt) (session : Session) (now : Ns)
    (cacheKey : Option CacheKey) : RuntimeProgram Unit := do
  let self ← readVolatile
  let quarantined ← Store.quarantined
  match chooseEndpoint (self.config.endpointsOf job.model) now (job.latestNs session)
      job.allowedSites self.config.poolSlots self.poolUse self.endpointUse quarantined
      self.config.placement with
  | none => pure ()
  | some endpoint => do
      let reserved ← tryReserve job endpoint now
      if reserved then launch job receipt endpoint cacheKey now (job.latestNs session)
      else moveTo job receipt .rejected "attempt_or_cost_ceiling"

/-- `self.cache.get`, which may drop an expired entry. -/
def cacheGet (key : Option CacheKey) (now : Ns) : RuntimeProgram (Option (String × Ns)) := do
  let self ← readVolatile
  let (hit, cache) := self.cache.get key now
  modifyVolatile fun self => { self with cache := cache }
  pure hit

/-- The second loop of `tick`: the clock and the session are read again for
every ranked job. -/
def dispatchReady (entry : RankKey × Job × Receipt) : RuntimeProgram Unit := do
  let (_, job, receipt) := entry
  let self ← readVolatile
  let now ← nowNs
  let session ← Store.session job.tenant job.sessionId
  match job.invalidReason session now self.clock.id with
  | some reason => moveTo job receipt reason.state reason.text
  | none =>
      match self.config.modelContract job.model with
      | none => raise (.keyError job.model.text)
      | some contract => do
          let key := HistoricalCache.key job contract.fingerprint
          let hit ← cacheGet key now
          match hit with
          | some (payload, computedNs) => deliverCached job receipt now payload computedNs
          | none => dispatch job receipt session now key

def tick : RuntimeProgram Unit := do
  let self ← readVolatile
  if self.closed then pure ()
  else do
    expire
    let now ← nowNs
    let queued ← Store.jobs self.config.tenant [.queued]
    let ready ← collect queued (rankReady now)
    forEach (sortByRank ready) dispatchReady

/-! ## The two segments of a task -/

/-- The `finally` block, and the end of the task. -/
def releaseSlot (task : Task) (self : Coordinator) : Coordinator :=
  { self with
    poolUse := decrement self.poolUse task.endpoint.pool
    endpointUse := decrement self.endpointUse task.endpoint.id
    running := self.running.filter fun other => other.job.id ≠ task.job.id }

/-- The charge of a failed call: nothing when the request was not sent, else
unknown. -/
def settleFailed (job : Job) (exception : PyExc) : RuntimeProgram Unit := do
  Store.settle job (if exception.notSent then some (Usage.ofCost 0) else none)
  if exception.notSent then do
    let noted ← nowNs
    Store.event noted (.backendNotSent job.id exception.code)
  else pure ()

/-- The state after a failed call: a receipt that is no longer RUNNING keeps its
own. -/
def failedState (old : Receipt) (exception : PyExc) : JobState :=
  if old.state ≠ .running then old.state
  else if exception.terminationKnown then .failed
  else .unknown

/-- The `except BaseException` block. -/
def handleFailure (task : Task) (exception : PyExc) : RuntimeProgram Unit := do
  if exception.endsProcess then raise exception
  else do
    let job := task.job
    settleFailed job exception
    let (_, old) ← Store.job job.tenant job.id
    let completed ← nowNs
    moveTo job { old with completedNs := some completed } (failedState old exception)
      exception.code
    if exception.terminationKnown then pure ()
    else do
      Store.quarantine task.endpoint.pool "unconfirmed_backend_termination"
      let noted ← nowNs
      Store.event noted (.poolQuarantined task.endpoint.pool job.id)

/-- The pre-send check; `true` when `backend.infer` is invoked. -/
def preSend (task : Task) : RuntimeProgram Bool := do
  let job := task.job
  let self ← readVolatile
  let current ← Store.session job.tenant job.sessionId
  let now ← nowNs
  match job.invalidReason current now self.clock.id with
  | none => pure true
  | some reason => do
      Store.settle job (some (Usage.ofCost 0))
      let (_, old) ← Store.job job.tenant job.id
      moveTo job old reason.state reason.text
      let noted ← nowNs
      Store.event noted (.notSentAfterDispatchCheck job.id)
      pure false

/-- `_run` up to the await of `backend.infer`. -/
def runStart (task : Task) : RuntimeProgram Bool := do
  let sent ← tryFinally
    (tryExcept (preSend task) fun exception => do
      handleFailure task exception
      pure false)
    (fun sent => ¬ sent) (releaseSlot task)
  if sent then do
    modifyVolatile fun self =>
      { self with
        running := self.running.map fun other =>
          if other.job.id = task.job.id then { other with phase := .awaiting } else other }
    pure true
  else pure false

/-- The receipt after a completed call. -/
def completedReceipt (old : Receipt) (state : JobState) (reason : Option PyStr) (now : Ns)
    (result : Prediction) : Receipt :=
  { old with
    state := state
    reason := reason
    completedNs := some now
    computedNs := some now
    predictionJson := some result.payloadJson
    usage := some result.usage
    firstContentNs := result.firstContentNs
    providerRequestId := result.providerRequestId }

/-- The state and the reason of a completed call: a receipt that is no longer
RUNNING keeps its own. -/
def completedState (old : Receipt) (invalid : Option InvalidReason) : JobState × Option PyStr :=
  if old.state ≠ .running then (old.state, old.reason)
  else
    match invalid with
    | some reason => (reason.state, some reason.text)
    | none => (.succeeded, none)

/-- The first-content instant of a reply lies between the start and now. -/
def checkFirstContent (old : Receipt) (result : Prediction) (now : Ns) : RuntimeProgram Unit :=
  match result.firstContentNs with
  | none => pure ()
  | some first =>
      match old.startedNs with
      | none => raise .typeError
      | some started =>
          if started ≤ first ∧ first ≤ now then pure ()
          else raise (.backendFailure (.new "invalid_first_content_clock" true false))

/-- Only a success enters the cache. -/
def cachePut (task : Task) (state : JobState) (result : Prediction) (now : Ns) :
    RuntimeProgram Unit := do
  if state = .succeeded then
    modifyVolatile fun self =>
      { self with cache := self.cache.put task.cacheKey result.payloadJson now }
  else pure ()

/-- The rest of the `try` block after a `Prediction` was returned. -/
def deliver (task : Task) (result : Prediction) : RuntimeProgram Unit := do
  let job := task.job
  let now ← nowNs
  let (_, old) ← Store.job job.tenant job.id
  checkFirstContent old result now
  Store.settle job (some result.usage)
  let session ← Store.session job.tenant job.sessionId
  let self ← readVolatile
  let (state, reason) := completedState old (job.invalidReason session now self.clock.id)
  Store.receipt job.tenant (completedReceipt old state reason now result)
  cachePut task state result now
  match old.startedNs with
  | none => raise .typeError
  | some started =>
      Store.event now (.completed job.id state ((started.val : Int) - old.submittedNs.val)
        ((now.val : Int) - started.val) result.firstContentNs (state = .succeeded)
        result.usage.costMicrousd)

/-- The `try` block after the await. -/
def receive (task : Task) : BackendReply → RuntimeProgram Unit
  | .raised exception => raise exception
  | .notPrediction => raise (.backendFailure (.new "invalid_prediction_contract" true false))
  | .prediction result => deliver task result

/-- `_run` from the reply of the backend to its end. -/
def runFinish (task : Task) (reply : BackendReply) : RuntimeProgram Unit :=
  tryFinally (tryExcept (receive task reply) (handleFailure task)) (fun _ => true)
    (releaseSlot task)

/-! ## Cancellation and consumption -/

def cancel (jobId : Name) : RuntimeProgram Receipt := do
  let self ← readVolatile
  let (job, receipt) ← Store.job self.config.tenant jobId
  if receipt.state ∈ [JobState.queued, .running, .succeeded] then
    setState job receipt .cancelled "consumer_cancelled"
  else pure receipt

def result (jobId : Name) : RuntimeProgram Receipt := do
  let self ← readVolatile
  let (_, receipt) ← Store.job self.config.tenant jobId
  pure receipt

/-- The ages of the current observations, each at its own clock reading. -/
def currentAges (job : Job) : RuntimeProgram (List Int) :=
  collect (job.observations.filter (·.role = .current)) fun observation => do
    let now ← nowNs
    pure (some ((now.val : Int) - observation.captureNs.val + observation.uncertaintyNs.val))

def consume (jobId : Name) (consumerId : String) : RuntimeProgram Receipt := do
  let self ← readVolatile
  let (job, receipt) ← Store.job self.config.tenant jobId
  let session ← Store.session job.tenant job.sessionId
  let now ← nowNs
  match job.invalidReason session now self.clock.id with
  | some reason => raise (.permissionError ("Consumption rejected: " ++ reason.text))
  | none =>
      if receipt.state ∉ [JobState.succeeded, .consumed] then
        raise (.permissionError "No acceptable result")
      else
        match receipt.consumedBy with
        | some consumer =>
            if consumer.text ≠ consumerId then
              raise (.permissionError "Result already claimed by another consumer")
            else pure receipt
        | none => do
            let consumedNs ← nowNs
            match Name.parse consumerId with
            | none => raise (.validationError "Receipt")
            | some consumer => do
                let done :=
                  { receipt with
                    state := .consumed
                    consumedBy := some consumer
                    consumedNs := some consumedNs }
                Store.receipt job.tenant done
                let noted ← nowNs
                let ages ← currentAges job
                Store.event noted (.consumed job.id consumer ages.max?)
                pure done

def recordOutcome (jobId : Name) (consumerId outcome evidenceRef : String) :
    RuntimeProgram Unit := do
  let receipt ← result jobId
  if receipt.consumedBy.map Name.text ≠ some consumerId ∨
      outcome ∉ ["accepted", "executed", "rejected", "unknown"] then
    raise (.permissionError "Outcome requires the claiming consumer and declared outcome type")
  else if evidenceRef.length = 0 ∨ 256 < evidenceRef.length then
    raise (.valueError "External evidence reference required")
  else do
    let now ← nowNs
    Store.event now (.consumerReportedOutcome jobId outcome evidenceRef)

/-! ## Start and shutdown -/

/-- The memory of a coordinator that is being constructed. -/
def initial (config : RuntimeConfig) (clock : Clock) (allowNetwork : Bool)
    (backends : List Name) : Coordinator where
  config := config
  clock := clock
  reads := 0
  cache := .new config.cacheEntries config.cacheBytes config.cacheTtlNs
  poolUse := fun _ => 0
  endpointUse := fun _ => 0
  running := []
  closed := false
  allowNetwork := allowNetwork
  backends := backends

/-- `Runtime.__init__`. -/
def start : RuntimeProgram Unit := do
  let self ← readVolatile
  Store.openLedger self.config.caps
  Store.bindTenant self.config.tenant
  let recovered ← nowNs
  Store.recover self.config.tenant recovered
  let started ← nowNs
  Store.event started (.coordinatorStarted self.clock.id ⟨self.config⟩)

/-- `close` up to the wait for the tasks. -/
def beginClose : RuntimeProgram Unit := do
  let self ← readVolatile
  if self.closed then pure ()
  else do
    modifyVolatile fun self => { self with closed := true }
    let queued ← Store.jobs self.config.tenant [.queued]
    forEach queued fun (job, receipt) =>
      moveTo job receipt .cancelled "coordinator_shutdown"

/-- `close` after the last task has ended. -/
def finishClose : RuntimeProgram Unit := do
  let now ← nowNs
  let quarantined ← Store.quarantined
  Store.event now (.coordinatorStopped quarantined)

end Runtime

end AgminaRuntime
