import AgminaRuntime.Backend

/-!
# The delivery fence of the client

Acceptance by the server cannot establish freshness at the application: a
reply ages again on its way.  The client therefore checks it once more, on its
own clock, through an explicit mapping with a bounded error between the two
clocks, and against the epoch and the task it is in now.
-/

namespace AgminaRuntime

/-- An explicit mapping between two clocks: its offset, the bound of its error
and the last instant of the target clock at which it may be used. -/
structure ClockMap where
  source : PyStr
  target : PyStr
  offsetNs : Int
  errorNs : Int
  validUntilNs : Int
  named : source.length ≠ 0 ∧ target.length ≠ 0
  bounded : 0 ≤ errorNs ∧ 0 ≤ validUntilNs
  deriving DecidableEq

/-- `ClockMap.map`: the mapped instant and the bound of its error. -/
def ClockMap.map (clockMap : ClockMap) (sourceNs : Int) (targetClock : PyStr) (nowNs : Int) :
    Except PyExc (Int × Int) :=
  if sourceNs < 0 ∨ nowNs < 0 then
    .error (.valueError "Integer nonnegative clocks required")
  else if clockMap.errorNs < 0 ∨ targetClock ≠ clockMap.target ∨ clockMap.validUntilNs < nowNs then
    .error (.valueError "Clock mapping is absent, expired or for a different coordinator")
  else if sourceNs + clockMap.offsetNs < 0 then
    .error (.valueError "Invalid mapped timestamp")
  else .ok (sourceNs + clockMap.offsetNs, clockMap.errorNs)

/-- What the client passes to `validate_delivery` besides the job and the
receipt. -/
structure DeliveryArgs where
  tenant : PyStr
  sessionId : PyStr
  currentEpoch : Int
  currentTaskRevision : PyStr
  consumerId : PyStr
  nowLocalNs : Int
  localClockId : PyStr
  serverToLocal : ClockMap
  maxMappingErrorNs : Int
  localUsefulUntilNs : Option Int
  deriving DecidableEq

structure DeliveryCheck where
  jobId : Name
  validUntilLocalNs : Int
  checkedAtLocalNs : Int
  actionAuthorized : Bool
  deriving DecidableEq

/-- The loop over the current observations: each one lowers the bound to the
instant at which its evidence, mapped to the local clock, is too old. -/
def boundByEvidence (job : Job) (args : DeliveryArgs) :
    List Observation → Int → Except PyExc Int
  | [], latest => .ok latest
  | observation :: rest, latest =>
      if observation.role = .current then
        match args.serverToLocal.map observation.captureNs.val args.localClockId
            args.nowLocalNs with
        | .error exception => .error exception
        | .ok (capture, error) =>
            match job.maxAgeNs with
            | none => .error .typeError
            | some maxAge =>
                boundByEvidence job args rest
                  (min latest (capture + maxAge.val - observation.uncertaintyNs.val - error))
      else boundByEvidence job args rest latest

/-- The bound of the deadline and of the evidence. -/
def deliveryBound (job : Job) (args : DeliveryArgs) : Except PyExc Int :=
  match args.serverToLocal.map job.deadlineNs.val args.localClockId args.nowLocalNs with
  | .error exception => .error exception
  | .ok (deadline, error) =>
      if job.resultKind = .historical then .ok (deadline - error)
      else boundByEvidence job args job.observations (deadline - error)

/-- A policy consumer supplies its own useful-completion deadline. -/
def boundByUsefulness (job : Job) (args : DeliveryArgs) (latest : Int) : Except PyExc Int :=
  if job.workload = .policy then
    match args.localUsefulUntilNs with
    | none => .error (.permissionError
        "Policy consumer must supply its current local useful-completion deadline")
    | some usefulUntil => .ok (min latest usefulUntil)
  else .ok latest

/-- `validate_delivery`. -/
def validateDelivery (job : Job) (receipt : Receipt) (args : DeliveryArgs) :
    Except PyExc DeliveryCheck :=
  if args.maxMappingErrorNs < 0 ∨ (∃ usefulUntil ∈ args.localUsefulUntilNs, usefulUntil < 0) then
    .error (.valueError "Explicit integer clock bounds required")
  else if receipt.requestFingerprint ≠ job.fingerprint ∨ receipt.jobId ≠ job.id then
    .error (.permissionError "Reply does not belong to the submitted job")
  else if receipt.state ≠ .consumed ∨
      receipt.consumedBy.map (fun consumer => PyStr.ofString consumer.text) ≠
        some args.consumerId ∨ receipt.predictionJson = none then
    .error (.permissionError "Result has not been claimed by this consumer")
  else if (PyStr.ofString job.tenant.text, PyStr.ofString job.sessionId.text,
        (job.epoch.val : Int), PyStr.ofString job.taskRevision.text) ≠
      (args.tenant, args.sessionId, args.currentEpoch, args.currentTaskRevision) then
    .error (.permissionError
      "Local execution/task epoch changed while inference or network was in flight")
  else if args.serverToLocal.source ≠ PyStr.ofString job.clockId.text ∨
      args.maxMappingErrorNs < args.serverToLocal.errorNs then
    .error (.permissionError "Missing or too-uncertain delivery clock mapping")
  else
    match deliveryBound job args with
    | .error exception => .error exception
    | .ok evidenceLatest =>
        match boundByUsefulness job args evidenceLatest with
        | .error exception => .error exception
        | .ok latest =>
            if latest ≤ args.nowLocalNs then
              .error (.permissionError "Result aged out during return transport")
            else .ok ⟨job.id, latest, args.nowLocalNs, false⟩

end AgminaRuntime
