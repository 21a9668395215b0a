import AgminaRuntime.JournaledRuns
import AgminaRuntime.Runtime

/-!
# Campaigns

A campaign is everything that happens to one ledger: coordinators start, take
the synchronous steps of their operations and tasks in any order, die between
two commits, and start again; in between an operator may open the store
offline.  Three history variables, which no modelled function reads, record
the invocations of `backend.infer`, the successful consumptions, and the pools
on which a backend call ended without confirmed termination and which the
operator has not released since.
-/

namespace AgminaRuntime

open Durable Durable.Program

/-- A synchronous step of a live coordinator. -/
inductive Action
  | openSession (sessionId taskRevision : String)
  | advanceSession (sid : Name) (expectedEpoch : Int) (taskRevision : String) (close : Bool)
  | heartbeat (sid : Name) (expectedEpoch : Int) (bufferUntilNs : Option Int)
  | submit (fields : JobFields)
  | tick
  | startTask (jobId : Name)
  | finishTask (jobId : Name) (reply : BackendReply)
  | cancel (jobId : Name)
  | consume (jobId : Name) (consumerId : String)
  | recordOutcome (jobId : Name) (consumerId outcome evidenceRef : String)
  | beginClose
  | finishClose
  | reconcile (tenant : Name) (entries : List (PyValue × PyValue × PyValue)) (nowNs : Ns)
  | releasePool (pool : Name) (evidence : PyStr) (nowNs : Ns)

/-- What a step shows outside the coordinator, besides its exception. -/
inductive Visible
  | quiet
  | inferred (task : Task)
  | consumed (job consumer : Name) (receipt : Receipt)
  | stopped

/-- The unfinished task of a job in a given phase. -/
def Coordinator.task? (self : Coordinator) (jobId : Name) (phase : Phase) : Option Task :=
  self.running.find? fun task => task.job.id = jobId ∧ task.phase = phase

/-- An entry names a job whose attempt is in flight. -/
def Coordinator.namesInFlight (self : Coordinator)
    (entries : List (PyValue × PyValue × PyValue)) : Bool :=
  self.running.any fun task =>
    entries.any fun entry => entry.1 = .str (PyStr.ofString task.job.id.text)

namespace Action

/-- Run a program for its effect. -/
def quietly {α : Type} (program : RuntimeProgram α) : RuntimeProgram Visible := do
  let _ ← program
  pure .quiet

/-- The program of a step.  A task segment runs only when the task is in the
phase before it; an attempt in flight is not reconciled under a live
coordinator; a coordinator stops only after its tasks have ended. -/
def program : Action → RuntimeProgram Visible
  | openSession sessionId taskRevision => quietly (Runtime.openSession sessionId taskRevision)
  | advanceSession sid expectedEpoch taskRevision close =>
      quietly (Runtime.advanceSession sid expectedEpoch taskRevision close)
  | heartbeat sid expectedEpoch bufferUntilNs =>
      quietly (Runtime.heartbeat sid expectedEpoch bufferUntilNs)
  | submit fields => quietly (Runtime.submit fields)
  | tick => quietly Runtime.tick
  | startTask jobId => do
      let self ← readVolatile
      match self.task? jobId .created with
      | none => pure .quiet
      | some task => do
          let sent ← Runtime.runStart task
          pure (if sent then .inferred task else .quiet)
  | finishTask jobId reply => do
      let self ← readVolatile
      match self.task? jobId .awaiting with
      | none => pure .quiet
      | some task => quietly (Runtime.runFinish task reply)
  | cancel jobId => quietly (Runtime.cancel jobId)
  | consume jobId consumerId => do
      let receipt ← Runtime.consume jobId consumerId
      match receipt.consumedBy with
      | none => pure .quiet
      | some consumer => pure (.consumed jobId consumer receipt)
  | recordOutcome jobId consumerId outcome evidenceRef =>
      quietly (Runtime.recordOutcome jobId consumerId outcome evidenceRef)
  | beginClose => quietly Runtime.beginClose
  | finishClose => do
      let self ← readVolatile
      if self.closed ∧ self.running = [] then do
        Runtime.finishClose
        pure .stopped
      else pure .quiet
  | reconcile tenant entries nowNs => do
      let self ← readVolatile
      if self.namesInFlight entries then pure .quiet
      else quietly (Store.reconcileMany tenant entries nowNs)
  | releasePool pool evidence nowNs => quietly (Store.releasePool pool evidence nowNs)

/-- The step brings a task a reply that confirms the end of its remote work. -/
def confirms (action : Action) (task : Task) : Bool :=
  match action with
  | finishTask jobId reply => task.job.id = jobId && reply.confirmed
  | _ => false

/-- The pool of a call that the step ends without confirmed termination. -/
def unconfirmed (action : Action) (self : Coordinator) : List Name :=
  match action with
  | finishTask jobId reply =>
      match self.task? jobId .awaiting with
      | none => []
      | some task => if reply.confirmed then [] else [task.endpoint.pool]
  | _ => []

/-- The pool that the operator releases, once the release is committed. -/
def releases (action : Action) (commits : List Ledger) : Option Name :=
  match action with
  | releasePool pool _ _ => if commits = [] then none else some pool
  | _ => none

end Action

/-- A use of the store while no coordinator runs. -/
inductive Operation
  | reconcile (tenant : Name) (entries : List (PyValue × PyValue × PyValue)) (nowNs : Ns)
  | releasePool (pool : Name) (evidence : PyStr) (nowNs : Ns)
  | extendBudget (maxAttempts maxMicrousd : Int) (approvalRef : PyStr) (nowNs : Ns)

namespace Operation

def program : Operation → LedgerProgram Unit Unit
  | reconcile tenant entries nowNs => Store.reconcileMany tenant entries nowNs
  | releasePool pool evidence nowNs => Store.releasePool pool evidence nowNs
  | extendBudget maxAttempts maxMicrousd approvalRef nowNs =>
      Store.extendBudget maxAttempts maxMicrousd approvalRef nowNs

def releases (operation : Operation) (commits : List Ledger) : Option Name :=
  match operation with
  | releasePool pool _ _ => if commits = [] then none else some pool
  | _ => none

end Operation

/-- The arguments of `Runtime(...)`. -/
structure StartArgs where
  config : RuntimeConfig
  clock : Clock
  allowNetwork : Bool
  backends : List Name

def StartArgs.memory (args : StartArgs) : Coordinator :=
  Runtime.initial args.config args.clock args.allowNetwork args.backends

/-- A step of a campaign.  `crash` and its two siblings cut the execution after
a number of commits; with `0` the process dies before the first of them. -/
inductive CampaignStep
  | act (action : Action)
  | crash (action : Action) (commits : Nat)
  | start (args : StartArgs)
  | crashStart (args : StartArgs) (commits : Nat)
  | operate (operation : Operation)
  | crashOperate (operation : Operation) (commits : Nat)

structure Campaign where
  ledger : Ledger
  live : Option Coordinator
  calls : List (Name × Name)
  consumptions : List (Name × Name × Receipt)
  hazards : List Name

namespace Campaign

/-- A ledger that no coordinator has used yet. -/
def fresh (caps : BudgetCaps) : Campaign :=
  ⟨.create caps, none, [], [], []⟩

/-- The tasks whose backend call has been made and has not ended. -/
def inFlight (self : Coordinator) : List Task :=
  self.running.filter fun task => task.phase = .awaiting

/-- Forget the hazard of a pool that was released. -/
def afterRelease (hazards : List Name) (released : Option Name) : List Name :=
  hazards.filter fun pool => some pool ≠ released

/-- The hazards after a coordinator has died during `action`: every call in
flight ended unconfirmed, but for one whose confirming reply had arrived. -/
def afterDeath (hazards : List Name) (self : Coordinator) (action : Action)
    (commits : List Ledger) : List Name :=
  afterRelease hazards (action.releases commits) ++
    ((inFlight self).filter fun task => ¬ action.confirms task).map fun task =>
      task.endpoint.pool

/-- The hazards after `action` was carried out by a coordinator that lives on:
a call that it ended unconfirmed makes its pool one. -/
def afterAction (hazards : List Name) (self : Coordinator) (action : Action)
    (commits : List Ledger) : List Name :=
  afterRelease hazards (action.releases commits) ++ action.unconfirmed self

/-- The execution ends the process: an exception left the event loop, or the
coordinator stopped. -/
def endsProcess : Except PyExc Visible → Bool
  | .error exception => exception.endsProcess
  | .ok .stopped => true
  | .ok _ => false

/-- The backend call that an execution has made. -/
def called : Except PyExc Visible → List (Name × Name)
  | .ok (.inferred task) => [task.job.key]
  | _ => []

/-- The consumption that an execution has granted. -/
def claimed : Except PyExc Visible → List (Name × Name × Receipt)
  | .ok (.consumed job consumer receipt) => [(job, consumer, receipt)]
  | _ => []

/-- One step, with the ledgers it commits. -/
def step (campaign : Campaign) : CampaignStep → Campaign × List Ledger
  | .act action =>
      match campaign.live with
      | none => (campaign, [])
      | some self =>
          let outcome := action.program campaign.ledger self
          let ended := endsProcess outcome.value
          ({ ledger := outcome.durable campaign.ledger
             live := if ended then none else some outcome.volatile
             calls := campaign.calls ++ called outcome.value
             consumptions := campaign.consumptions ++ claimed outcome.value
             hazards :=
               if ended then afterDeath campaign.hazards self action outcome.commits
               else afterAction campaign.hazards self action outcome.commits },
            outcome.commits)
  | .crash action count =>
      match campaign.live with
      | none => (campaign, [])
      | some self =>
          let commits := (action.program campaign.ledger self).commits.take count
          ({ campaign with
             ledger := commits.getLast?.getD campaign.ledger
             live := none
             hazards := afterDeath campaign.hazards self action commits },
            commits)
  | .start args =>
      match campaign.live with
      | some _ => (campaign, [])
      | none =>
          let outcome := Runtime.start campaign.ledger args.memory
          ({ campaign with
             ledger := outcome.durable campaign.ledger
             live :=
               match outcome.value with
               | .ok _ => some outcome.volatile
               | .error _ => none },
            outcome.commits)
  | .crashStart args count =>
      match campaign.live with
      | some _ => (campaign, [])
      | none =>
          let commits := (Runtime.start campaign.ledger args.memory).commits.take count
          ({ campaign with ledger := commits.getLast?.getD campaign.ledger }, commits)
  | .operate operation =>
      match campaign.live with
      | some _ => (campaign, [])
      | none =>
          let outcome := operation.program campaign.ledger ()
          ({ campaign with
             ledger := outcome.durable campaign.ledger
             hazards := afterRelease campaign.hazards (operation.releases outcome.commits) },
            outcome.commits)
  | .crashOperate operation count =>
      match campaign.live with
      | some _ => (campaign, [])
      | none =>
          let commits := (operation.program campaign.ledger ()).commits.take count
          ({ campaign with
             ledger := commits.getLast?.getD campaign.ledger
             hazards := afterRelease campaign.hazards (operation.releases commits) },
            commits)

/-- The campaign after a run. -/
def run (campaign : Campaign) (steps : List CampaignStep) : Campaign :=
  (runSteps step campaign steps).1

/-- The ledgers that a run commits, oldest first. -/
def journal (campaign : Campaign) (steps : List CampaignStep) : List Ledger :=
  (runSteps step campaign steps).2

/-- Some run over a fresh ledger ends in the campaign. -/
def Reachable (campaign : Campaign) : Prop :=
  ∃ caps steps, campaign = (fresh caps).run steps

end Campaign

/-! ## A small campaign

One pool with one slot, one endpoint that holds 6 microdollars for a call, and
one job with a current observation. -/

namespace Sample

def gpu : Name := ⟨"gpu", by decide⟩
def model : Name := ⟨"vision", by decide⟩
def site : Name := ⟨"local", by decide⟩
def tenant : Name := ⟨"lab", by decide⟩
def session : Name := ⟨"drone", by decide⟩
def revision : Name := ⟨"inspect", by decide⟩
def job : Name := ⟨"job", by decide⟩

def endpoint : Endpoint where
  id := ⟨"worker", by decide⟩
  model := model
  pool := gpu
  site := site
  kind := .mock
  serviceP95Ns := 1
  transportP95Ns := 0
  marginNs := 0
  maxInflight := 1
  reserveMicrousd := 6
  externallyBilled := false
  maxInflightBounded := by decide
  paidReserves := by decide

def config : RuntimeConfig where
  tenant := tenant
  caps := ⟨⟨"campaign", by decide⟩, 100, 1000⟩
  maxQueue := 256
  maxJobs := 1000
  scheduler := .slack
  placement := .fastest
  cacheEntries := 4
  cacheBytes := 1000
  cacheTtlNs := 1000
  pools := [⟨gpu, 1, by decide⟩]
  models := [⟨model, "weights", "preprocessing", "operation", "schema"⟩]
  endpoints := [endpoint]
  capsBounded := by decide
  queueBounded := by decide
  cacheBounded := by decide
  poolsDistinct := by decide
  modelsDistinct := by decide
  endpointsDistinct := by decide
  endpointsKnown := by decide
  modelsServed := by decide

theorem isName_second : isName "second" = true := by decide

/-- The first clock of the campaign, and that of the coordinator after it. -/
def firstClock : Name := ⟨"first", by decide⟩
def secondClock : Name := ⟨"second", isName_second⟩

def args (clockId : Name) (nowNs : Nat → Ns) : StartArgs :=
  ⟨config, ⟨clockId, nowNs⟩, false, []⟩

theorem untimed : ∀ text ∈ (none : Option String), text.length ≤ 160 := by simp

theorem unidentified : ∀ text ∈ (none : Option PyStr), text.length ≤ 256 := by simp

def observation : Observation where
  id := ⟨"frame", by decide⟩
  source := ⟨"camera", by decide⟩
  sequence := 0
  sha256 := ⟨"aaaaaaaaaaaaaaaaaaaaaaaaaaaaaaaaaaaaaaaaaaaaaaaaaaaaaaaaaaaaaaaa", by decide⟩
  captureNs := 10
  availableNs := 10
  uncertaintyNs := 0
  sourceTime := none
  sourceTimeBounded := untimed
  ordered := by decide
  role := .current

def fields : JobFields where
  id := job
  tenant := tenant
  sessionId := session
  epoch := 0
  taskRevision := revision
  clockId := firstClock
  model := model
  operation := ⟨"describe", by decide⟩
  workload := .semantic
  resultKind := .current
  observations := [observation]
  snapshotNs := 10
  deadlineNs := 1000
  maxAgeNs := some 1000
  maxUncertaintyNs := 0
  priority := 1
  allowedSites := [site]
  dependencies := []
  payloadJson := "{}"
  replaceKey := none
  discardable := false
  cacheable := false

theorem fields_valid : fields.violation = none := by decide

/-- A reply with a given charge. -/
def reply (cost : Nat) : BackendReply :=
  .prediction ⟨"{}", .ofCost cost, none, none, unidentified⟩

/-- A coordinator starts with a given clock and opens the session. -/
def opening (nowNs : Nat → Ns) : List CampaignStep :=
  [.start (args firstClock nowNs), .act (.openSession "drone" "inspect")]

/-- The job is submitted, dispatched and sent. -/
def sending : List CampaignStep :=
  opening (fun _ => 10) ++ [.act (.submit fields), .act .tick, .act (.startTask job)]

/-- The next coordinator. -/
def restart : CampaignStep := .start (args secondClock fun _ => 20)

end Sample

end AgminaRuntime
