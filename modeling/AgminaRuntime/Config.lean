import AgminaRuntime.Contracts

/-!
# Operator configuration

Pinned model contracts, resource pools, endpoints with their charge
estimates, and the caps of a campaign.  The registry checks of the source are
fields here: a configuration with a dangling reference cannot be built.
-/

namespace AgminaRuntime

/-- A cooperative semaphore over one device. -/
structure Pool where
  id : Name
  slots : Nat
  slotsBounded : 1 ≤ slots ∧ slots ≤ 64
  deriving DecidableEq

structure ModelContract where
  modelAlias : Name
  weights : String
  preprocessing : String
  outputSchema : String
  sampling : String
  deriving DecidableEq

def ModelContract.fingerprint (contract : ModelContract) : Fingerprint ModelContract :=
  ⟨contract⟩

inductive EndpointKind
  | mock | chat | triton | worker
  deriving DecidableEq

structure Endpoint where
  id : Name
  model : Name
  pool : Name
  site : Name
  kind : EndpointKind
  serviceP95Ns : Ns
  transportP95Ns : Ns
  marginNs : Ns
  maxInflight : Nat
  reserveMicrousd : Ns
  externallyBilled : Bool
  maxInflightBounded : 1 ≤ maxInflight ∧ maxInflight ≤ 64
  paidReserves : externallyBilled = true → reserveMicrousd ≠ 0
  deriving DecidableEq

/-- A conservative heuristic sum, not a calibrated joint p95. -/
def Endpoint.estimateNs (endpoint : Endpoint) : Nat :=
  endpoint.serviceP95Ns.val + endpoint.transportP95Ns.val + endpoint.marginNs.val

inductive Scheduler
  | fifo | edf | slack
  deriving DecidableEq

inductive Placement
  | fastest | cheapestFeasible
  deriving DecidableEq

/-- The campaign and its cumulative caps, as the ledger keeps them. -/
structure BudgetCaps where
  campaign : Name
  maxAttempts : Nat
  maxMicrousd : Nat
  deriving DecidableEq

structure RuntimeConfig where
  tenant : Name
  caps : BudgetCaps
  maxQueue : Nat
  maxJobs : Nat
  scheduler : Scheduler
  placement : Placement
  cacheEntries : Nat
  cacheBytes : Nat
  cacheTtlNs : Ns
  pools : List Pool
  models : List ModelContract
  endpoints : List Endpoint
  capsBounded : caps.maxAttempts ≤ 1000000 ∧ caps.maxMicrousd < 2 ^ 63
  queueBounded : (1 ≤ maxQueue ∧ maxQueue ≤ 10000) ∧ 1 ≤ maxJobs ∧ maxJobs ≤ 1000000
  cacheBounded : cacheEntries ≤ 10000 ∧ cacheBytes ≤ 128000000
  poolsDistinct : (pools.map Pool.id).Nodup
  modelsDistinct : (models.map ModelContract.modelAlias).Nodup
  endpointsDistinct : (endpoints.map Endpoint.id).Nodup
  endpointsKnown : ∀ endpoint ∈ endpoints,
    endpoint.pool ∈ pools.map Pool.id ∧ endpoint.model ∈ models.map ModelContract.modelAlias
  modelsServed : ∀ contract ∈ models, contract.modelAlias ∈ endpoints.map Endpoint.model
  deriving DecidableEq

namespace RuntimeConfig

/-- `self.models[model]`. -/
def modelContract (config : RuntimeConfig) (model : Name) : Option ModelContract :=
  config.models.find? fun contract => contract.modelAlias = model

/-- `self.pools[id]`; every endpoint of a configuration names a known pool. -/
def poolSlots (config : RuntimeConfig) (pool : Name) : Nat :=
  ((config.pools.find? fun candidate => candidate.id = pool).map Pool.slots).getD 0

/-- The endpoints that serve a model. -/
def endpointsOf (config : RuntimeConfig) (model : Name) : List Endpoint :=
  config.endpoints.filter fun endpoint => endpoint.model = model

end RuntimeConfig

end AgminaRuntime
