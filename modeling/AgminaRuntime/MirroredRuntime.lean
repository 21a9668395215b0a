import AgminaRuntime.CampaignInvariant
import AgminaRuntime.ReplayRuns

/-!
# A coordinator that mirrors a replay

The comparison of a replay with the coordinator needs a coordinator that is
given the same work: one pool with the slots of the trace, an endpoint whose
estimate is the profile, a job for each request, and a backend whose calls
last as long as the service.  The driver sets a manual clock to each instant
of the replay, lets the calls return that are over, submits the jobs of the
requests that are released, ticks, and lets the new tasks run.
-/

namespace AgminaRuntime

/-! ## The work -/

/-- What makes a job, with the endpoint that serves it, the mirror of a
request. -/
structure ReplayRequest.Mirrored (request : ReplayRequest) (config : RuntimeConfig)
    (clockId : Name) (job : Job) (endpoint : Endpoint) : Prop where
  id : job.id = request.id
  tenant : job.tenant = config.tenant
  session : job.sessionId = request.session
  clock : job.clockId = clockId
  priority : job.priority = request.priority
  deadline : job.deadlineNs = request.deadlineNs
  kind : job.resultKind = .current
  maxAge : job.maxAgeNs = some request.maxAgeNs
  snapshot : job.snapshotNs ≤ request.releaseNs
  evidence : ∃ observation, job.observations = [observation] ∧ observation.role = .current ∧
    observation.captureNs = request.captureNs ∧ observation.uncertaintyNs = 0
  workload : job.workload ≠ .policy
  independent : job.dependencies = []
  irreplaceable : job.replaceKey = none
  uncached : job.cacheable = false
  served : config.endpointsOf job.model = [endpoint]
  allowed : endpoint.site ∈ job.allowedSites
  estimate : endpoint.estimateNs = request.profileNs.val

/-- The reply of a backend whose charge SQLite can store and whose identifier
it can return. -/
structure Prediction.Storable (result : Prediction) : Prop where
  charge : ∀ cost ∈ result.usage.costMicrousd, cost < 2 ^ 63
  requestId : PyStr.Plain result.providerRequestId

/-- A configuration and the jobs that mirror a trace.  The journal has room for
all of them; `returns` is the order in which calls return that are over at the
same instant. -/
structure Mirror (trace : Trace) where
  config : RuntimeConfig
  clockId : Name
  allowNetwork : Bool
  backends : List Name
  pool : Pool
  job : ReplayRequest → Job
  endpoint : ReplayRequest → Endpoint
  reply : ReplayRequest → Prediction
  returns : List ReplayRequest
  onePool : config.pools = [pool]
  slots : pool.slots = trace.slots
  journal : trace.requests.length ≤ config.maxJobs
  mirrored : ∀ request ∈ trace.requests,
    request.Mirrored config clockId (job request) (endpoint request)
  inflight : ∀ request ∈ trace.requests, trace.slots ≤ (endpoint request).maxInflight
  network : ∀ request ∈ trace.requests, allowNetwork = true ∨ (endpoint request).kind = .mock ∨
    (endpoint request).id ∈ backends
  evidence : ∀ first ∈ trace.requests, ∀ second ∈ trace.requests,
    first.session = second.session →
      ∀ one ∈ (job first).observations, ∀ other ∈ (job second).observations,
        one.id = other.id → one.toEvidence = other.toEvidence
  storable : ∀ request ∈ trace.requests, (reply request).Storable
  allReturn : returns.Perm trace.requests

/-! ## The clock -/

/-- `ManualClock.advance_to`, under every reading until the next call. -/
def Coordinator.advanceTo (now : Ns) (memory : Coordinator) : Coordinator :=
  { memory with clock := ⟨memory.clock.id, fun _ => now⟩ }

def Campaign.advanceTo (now : Ns) (campaign : Campaign) : Campaign :=
  { campaign with live := campaign.live.map (·.advanceTo now) }

/-- The values of `now` in the loop of a replay. -/
def replayInstants (slots : Nat) (mode : Scheduler) (state : Replaying) : List Nat :=
  if state.unfinished then
    state.now ::
      match _chosen : (state.turn slots mode).nextTimes.min? with
      | none => []
      | some next => replayInstants slots mode { state.turn slots mode with now := next }
  else []
termination_by state.pending
decreasing_by exact (jump_pending (List.min?_mem (by assumption))).trans_le (turn_pending _ _ _)

/-- An instant that a clock of the coordinator can show. -/
def Ns.ofNat? (instant : Nat) : Option Ns :=
  if bounded : instant < 2 ^ 63 then some ⟨instant, bounded⟩ else none

/-! ## The driver -/

/-- A campaign under the driver, with the instant of each backend call. -/
structure Driven where
  campaign : Campaign
  called : Name → Option Nat

namespace Driven

/-- Take a step, and note the instant of a backend call that it makes. -/
def act (now : Ns) (driven : Driven) (action : Action) : Driven :=
  let next := (driven.campaign.step (.act action)).1
  { campaign := next
    called := fun id =>
      driven.called id <|> if id ∈ next.calls.map Prod.snd then some now.val else none }

/-- Take the steps one after the other. -/
def acts (now : Ns) (driven : Driven) (actions : List Action) : Driven :=
  actions.foldl (act now) driven

/-- The first segments of the tasks that have not run yet. -/
def sends (driven : Driven) : List Action :=
  match driven.campaign.live with
  | none => []
  | some memory =>
      (memory.running.filter fun task => task.phase = .created).map fun task =>
        .startTask task.job.id

end Driven

namespace Mirror

variable {trace : Trace} (mirror : Mirror trace)

/-- The replies of the calls that are over. -/
def replies (now : Ns) (driven : Driven) : List Action :=
  (mirror.returns.filter fun request =>
      (driven.called request.id).any fun began =>
        began + request.serviceNs.val = now.val).map fun request =>
    .finishTask request.id (.prediction (mirror.reply request))

/-- The submissions of the requests that are released. -/
def submissions (now : Ns) : List Action :=
  (trace.ordered.filter fun request => request.releaseNs = now).map fun request =>
    .submit (mirror.job request).toJobFields

/-- One instant: completions, submissions, the tick, and the calls that it
leads to. -/
def instant (driven : Driven) (now : Ns) : Driven :=
  let ready : Driven := { driven with campaign := driven.campaign.advanceTo now }
  let returned := ready.acts now (mirror.replies now ready)
  let ticked := returned.acts now (mirror.submissions now ++ [.tick])
  ticked.acts now ticked.sends

/-- The campaign that is driven through every instant of the replay. -/
def drive (campaign : Campaign) : Driven :=
  ((replayInstants trace.slots mirror.config.scheduler (Replaying.initial trace)).filterMap
      Ns.ofNat?).foldl mirror.instant ⟨campaign, fun _ => none⟩

/-- A coordinator that has opened the sessions of the trace on a clock that
begins with the replay. -/
structure Ready (campaign : Campaign) : Prop where
  reachable : campaign.Reachable
  live : ∃ memory, campaign.live = some memory ∧ memory.config = mirror.config ∧
    memory.clock = ⟨mirror.clockId, fun _ => 0⟩ ∧ memory.allowNetwork = mirror.allowNetwork ∧
      memory.backends = mirror.backends ∧ memory.closed = false
  jobs : campaign.ledger.jobs.rows = []
  observations : campaign.ledger.observations.rows = []
  quarantined : campaign.ledger.quarantined = []
  sessions : ∀ request ∈ trace.requests, ∃ session,
    campaign.ledger.sessions.lookup (mirror.job request).sessionKey = some session ∧
      session.Current (mirror.job request) mirror.clockId

end Mirror

/-! ## What is compared -/

/-- The queue or the budget has refused the job. -/
def Receipt.Limited (receipt : Receipt) : Prop :=
  receipt.state = .rejected ∧ receipt.reason ∈
    [some (PyStr.ofString "queue_capacity"), some (PyStr.ofString "attempt_or_cost_ceiling")]

instance (receipt : Receipt) : Decidable receipt.Limited :=
  inferInstanceAs (Decidable (_ ∧ _))

/-- Neither the queue nor the budget has refused a job. -/
def Ledger.Unlimited (ledger : Ledger) : Prop :=
  ∀ row ∈ ledger.jobs.rows, ¬ row.receipt.Limited

instance (ledger : Ledger) : Decidable ledger.Unlimited :=
  inferInstanceAs (Decidable (∀ _ ∈ _, _))

/-- A tick has dispatched the job at an instant. -/
def Ledger.Dispatched (ledger : Ledger) (id : Name) (instant : Nat) : Prop :=
  ∃ row ∈ ledger.jobs.rows, row.job.id = id ∧ row.receipt.startedNs.map Fin.val = some instant

/-- A replay has started the request at an instant. -/
def ReplayReport.Started (report : ReplayReport) (id : Name) (instant : Nat) : Prop :=
  ∃ record ∈ report.records, record.id = id ∧ record.startedNs = some instant

end AgminaRuntime
