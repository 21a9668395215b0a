import AgminaRuntime.PythonText
import Mathlib.Data.Fin.Basic

/-!
# Wire contracts

Sessions, observations, jobs, predictions and receipts, with the two readings
of time that every decision rests on: the latest useful instant of a job, and
the reason why a job is invalid against the stored session.

All scheduling times are integer nanoseconds of one named monotonic clock.
-/

namespace AgminaRuntime

/-- `Annotated[int, Field(ge=0, le=2**63 - 1)]`. -/
abbrev Ns := Fin (2 ^ 63)

instance neZero_ns : NeZero (2 ^ 63) := ⟨by decide⟩

instance neZero_priorities : NeZero 4 := ⟨by decide⟩

def isNameChar (char : Char) : Bool :=
  char.isAlphanum || char ∈ ['_', '.', ':', '/', '@', '+', '-']

/-- `^[A-Za-z0-9][A-Za-z0-9_.:/@+-]*$` with at most 160 characters. -/
def isName (text : String) : Bool :=
  match text.toList with
  | [] => false
  | first :: rest => first.isAlphanum && rest.all isNameChar && decide (rest.length < 160)

/-- An identifier that passed the `Name` pattern. -/
structure Name where
  text : String
  valid : isName text = true
  deriving DecidableEq

theorem Name.eq_of_text {first second : Name} (sameText : first.text = second.text) :
    first = second := by
  cases first
  cases second
  cases sameText
  rfl

/-- Validate raw text as a `Name`. -/
def Name.parse (text : String) : Option Name :=
  if valid : isName text = true then some ⟨text, valid⟩ else none

def isSha (text : String) : Bool :=
  text.toList.length = 64 &&
    text.toList.all fun char => char.isDigit || (char.isAlpha && char.isLower && char ≤ 'f')

/-- A lower-case SHA-256 digest. -/
structure Sha where
  text : String
  valid : isSha text = true
  deriving DecidableEq

/-- `fingerprint(value)` is the SHA-256 of the canonical JSON of a contract.
SHA-256 is taken as collision free, so a digest is represented by the value it
was computed from. -/
structure Fingerprint (α : Type) where
  preimage : α
  deriving DecidableEq

inductive ResultKind
  | current | historical | actionProposal
  deriving DecidableEq

inductive JobState
  | queued | running | succeeded | consumed | rejected | expired | stale | cancelled
  | superseded | failed | unknown
  deriving DecidableEq

inductive Workload
  | policy | segmentation | semantic | mapping | query
  deriving DecidableEq

inductive Role
  | current | context
  deriving DecidableEq

inductive SessionState
  | active | closed
  deriving DecidableEq

/-- An observation without its job-local role: the evidence that
`source_fingerprint` identifies and the journal stores. -/
structure Evidence where
  id : Name
  source : Name
  sequence : Ns
  sha256 : Sha
  captureNs : Ns
  availableNs : Ns
  uncertaintyNs : Ns
  sourceTime : Option String
  sourceTimeBounded : ∀ text ∈ sourceTime, text.length ≤ 160
  ordered : captureNs ≤ availableNs
  deriving DecidableEq

structure Observation extends Evidence where
  role : Role
  deriving DecidableEq

/-- Evidence identity excludes the job-local current/context role. -/
def Observation.sourceFingerprint (observation : Observation) : Fingerprint Evidence :=
  ⟨observation.toEvidence⟩

structure Session where
  tenant : Name
  id : Name
  epoch : Ns
  taskRevision : Name
  clockId : Name
  state : SessionState
  updatedNs : Ns
  bufferUntilNs : Option Ns
  deriving DecidableEq

/-- The fields of a job before the model validator has seen them. -/
structure JobFields where
  id : Name
  tenant : Name
  sessionId : Name
  epoch : Ns
  taskRevision : Name
  clockId : Name
  model : Name
  operation : Name
  workload : Workload
  resultKind : ResultKind
  observations : List Observation
  snapshotNs : Ns
  deadlineNs : Ns
  maxAgeNs : Option Ns
  maxUncertaintyNs : Ns
  priority : Fin 4
  allowedSites : List Name
  dependencies : List Name
  payloadJson : String
  replaceKey : Option Name
  discardable : Bool
  cacheable : Bool
  deriving DecidableEq

/-- `Job.valid`: the text of the first check that fails. -/
def JobFields.violation (job : JobFields) : Option String :=
  if 32 < job.observations.length ∨ 32 < job.dependencies.length then
    some "Tuple should have at most 32 items after validation"
  else if job.observations = [] ∧ job.workload ≠ .query then
    some "Evidence-bound jobs require at least one observation"
  else if job.deadlineNs ≤ job.snapshotNs then
    some "Deadline must follow evidence cutoff"
  else if ¬ (job.observations.map fun o => o.id).Nodup then
    some "Repeated observation ID"
  else if ∃ o ∈ job.observations, job.snapshotNs < o.availableNs then
    some "Evidence unavailable at snapshot"
  else if ∃ o ∈ job.observations, job.maxUncertaintyNs < o.uncertaintyNs then
    some "Capture clock uncertainty exceeds operator bound"
  else if job.resultKind ≠ .historical ∧
      (job.maxAgeNs = none ∨ ¬ ∃ o ∈ job.observations, o.role = .current) then
    some "Current/action results require current evidence and an age bound"
  else if job.replaceKey.isSome ∧ ¬ job.discardable then
    some "Latest-only replacement requires explicit discard permission"
  else if job.workload = .policy ∧ (job.discardable ∨ job.cacheable) then
    some "Policy jobs cannot be implicitly dropped or result-cached"
  else if job.cacheable ∧ job.resultKind ≠ .historical then
    some "Only exact historical queries may reuse completed results"
  else if job.allowedSites = [] ∨ ¬ job.allowedSites.Nodup then
    some "Explicit unique allowed sites required"
  else if job.id ∈ job.dependencies ∨ ¬ job.dependencies.Nodup then
    some "Invalid dependency set"
  else none

/-- A validated job. -/
structure Job extends JobFields where
  valid : toJobFields.violation = none
  deriving DecidableEq

/-- `Job.model_validate_json`. -/
def JobFields.validate (job : JobFields) : Except String Job :=
  match violationEq : job.violation with
  | none => .ok ⟨job, violationEq⟩
  | some text => .error text

theorem JobFields.validate_ok {fields : JobFields} {job : Job}
    (valid : fields.validate = .ok job) : fields = job.toJobFields := by
  unfold validate at valid
  split at valid
  · rw [Except.ok.injEq] at valid
    rw [← valid]
  · contradiction

theorem Job.validate_toJobFields (job : Job) : job.toJobFields.validate = .ok job := by
  unfold JobFields.validate
  split
  · rfl
  · rename_i text violated
    rw [job.valid] at violated
    contradiction

namespace Job

/-- The journal's primary key of a job. -/
def key (job : Job) : Name × Name := (job.tenant, job.id)

/-- The journal's primary key of the session a job belongs to. -/
def sessionKey (job : Job) : Name × Name := (job.tenant, job.sessionId)

/-- `Job.fingerprint`. -/
def fingerprint (job : Job) : Fingerprint Job := ⟨job⟩

/-- The bound that one observation puts on a current result. -/
def ageBound (maxAge : Ns) (observation : Observation) : Int :=
  (observation.captureNs.val : Int) + maxAge.val - observation.uncertaintyNs.val

/-- The deadline and the age bounds of the current observations: what a host
cannot move after submission. -/
def fixedLatestNs (job : Job) : Int :=
  if job.resultKind = .historical then job.deadlineNs.val
  else
    match job.maxAgeNs with
    -- a validated job that is not historical has an age bound
    | none => job.deadlineNs.val
    | some maxAge =>
        ((job.observations.filter (·.role = .current)).map (ageBound maxAge)).foldl min
          (job.deadlineNs.val : Int)

/-- The latest useful instant of a job. -/
def latestNs (job : Job) (session : Session) : Int :=
  match job.workload, session.bufferUntilNs with
  | .policy, some bufferUntil => min job.fixedLatestNs bufferUntil.val
  | _, _ => job.fixedLatestNs

end Job

/-- What `invalid_reason` can answer. -/
inductive InvalidReason
  | clockEpochMismatch | sessionEpochMismatch | futureSnapshot | deadlineOrFreshnessExpired
  deriving DecidableEq

def InvalidReason.text : InvalidReason → String
  | clockEpochMismatch => "clock_epoch_mismatch"
  | sessionEpochMismatch => "session_epoch_mismatch"
  | futureSnapshot => "future_snapshot"
  | deadlineOrFreshnessExpired => "deadline_or_freshness_expired"

/-- `EXPIRED if "expired" in reason else STALE`. -/
def InvalidReason.state (reason : InvalidReason) : JobState :=
  if (PyStr.ofString reason.text).contains "expired" then .expired else .stale

theorem InvalidReason.state_eq (reason : InvalidReason) :
    reason.state = if reason = .deadlineOrFreshnessExpired then .expired else .stale := by
  cases reason <;> decide

/-- Why a job may not be sent, delivered or consumed now, if it may not. -/
def Job.invalidReason (job : Job) (session : Session) (nowNs : Ns) (clockId : Name) :
    Option InvalidReason :=
  if job.clockId ≠ clockId ∨ session.clockId ≠ clockId then
    some .clockEpochMismatch
  else if (job.tenant, job.sessionId, job.epoch, job.taskRevision) ≠
      (session.tenant, session.id, session.epoch, session.taskRevision) ∨
        session.state ≠ .active then
    some .sessionEpochMismatch
  else if nowNs < job.snapshotNs then
    some .futureSnapshot
  else if job.latestNs session ≤ nowNs.val then
    some .deadlineOrFreshnessExpired
  else none

theorem Job.invalidReason_eq_none_iff {job : Job} {session : Session} {nowNs : Ns}
    {clockId : Name} :
    job.invalidReason session nowNs clockId = none ↔
      (job.clockId = clockId ∧ session.clockId = clockId) ∧
        ((job.tenant, job.sessionId, job.epoch, job.taskRevision) =
            (session.tenant, session.id, session.epoch, session.taskRevision) ∧
          session.state = .active) ∧
          job.snapshotNs ≤ nowNs ∧ (nowNs.val : Int) < job.latestNs session := by
  unfold invalidReason
  split
  · rename_i clocks
    simp only [reduceCtorEq, false_iff]
    tauto
  · rename_i clocks
    split
    · rename_i generation
      simp only [reduceCtorEq, false_iff]
      tauto
    · rename_i generation
      split
      · rename_i future
        simp only [reduceCtorEq, false_iff]
        intro valid
        exact absurd valid.2.2.1 (Fin.not_le.mpr future)
      · rename_i past
        split
        · rename_i expired
          simp only [reduceCtorEq, false_iff]
          intro valid
          omega
        · rename_i fresh
          simp only [true_iff]
          simp only [not_or, not_not] at clocks generation
          exact ⟨clocks, generation, Fin.not_lt.mp past, by omega⟩

/-- Token counts and the charge.  The charge is attached after validation, so
it carries no upper bound of its own. -/
structure Usage where
  inputTokens : Option Ns
  outputTokens : Option Ns
  cachedInputTokens : Option Ns
  reasoningOutputTokens : Option Ns
  costMicrousd : Option Nat
  cachedWithinInput : ∀ cached ∈ cachedInputTokens, ∃ input ∈ inputTokens, cached ≤ input
  reasoningWithinOutput :
    ∀ reasoning ∈ reasoningOutputTokens, ∃ output ∈ outputTokens, reasoning ≤ output
  deriving DecidableEq

theorem Usage.within_unknown : ∀ part ∈ (none : Option Ns), ∃ whole ∈ (none : Option Ns),
    part ≤ whole := by
  simp

/-- `Usage(cost_microusd=cost)`. -/
def Usage.ofCost (cost : Nat) : Usage :=
  ⟨none, none, none, none, some cost, within_unknown, within_unknown⟩

structure Prediction where
  payloadJson : String
  usage : Usage
  firstContentNs : Option Ns
  providerRequestId : Option PyStr
  requestIdBounded : ∀ text ∈ providerRequestId, text.length ≤ 256
  deriving DecidableEq

structure Receipt where
  jobId : Name
  requestFingerprint : Fingerprint Job
  state : JobState
  endpoint : Option Name
  reason : Option PyStr
  submittedNs : Ns
  startedNs : Option Ns
  completedNs : Option Ns
  computedNs : Option Ns
  firstContentNs : Option Ns
  predictionJson : Option String
  usage : Option Usage
  providerRequestId : Option PyStr
  cacheHit : Bool
  consumedBy : Option Name
  consumedNs : Option Ns
  deriving DecidableEq

/-- `Receipt(job_id=..., request_fingerprint=..., state=..., reason=...,
submitted_ns=...)`, every other field at its default. -/
def Receipt.initial (job : Job) (state : JobState) (reason : Option PyStr)
    (submittedNs : Ns) : Receipt where
  jobId := job.id
  requestFingerprint := job.fingerprint
  state := state
  endpoint := none
  reason := reason
  submittedNs := submittedNs
  startedNs := none
  completedNs := none
  computedNs := none
  firstContentNs := none
  predictionJson := none
  usage := none
  providerRequestId := none
  cacheHit := false
  consumedBy := none
  consumedNs := none

/-- `Receipt.model_validate_json` on the canonical JSON of a receipt: text with
an unpaired surrogate and a charge beyond `2**63 - 1` are refused. -/
def Receipt.reparse (receipt : Receipt) : Option Receipt := do
  let reason ← PyStr.reparseOption receipt.reason
  let providerRequestId ← PyStr.reparseOption receipt.providerRequestId
  if ∃ usage ∈ receipt.usage, ∃ cost ∈ usage.costMicrousd, 2 ^ 63 ≤ cost then none
  else some { receipt with reason := reason, providerRequestId := providerRequestId }

/-- The journal returns the receipt as it was written. -/
def Receipt.Readable (receipt : Receipt) : Prop :=
  receipt.reparse = some receipt

instance (receipt : Receipt) : Decidable receipt.Readable :=
  inferInstanceAs (Decidable (receipt.reparse = some receipt))

theorem Receipt.reparse_eq_some_iff {receipt parsed : Receipt} :
    receipt.reparse = some parsed ↔
      ∃ reason providerRequestId,
        PyStr.reparseOption receipt.reason = some reason ∧
          PyStr.reparseOption receipt.providerRequestId = some providerRequestId ∧
            (¬ ∃ usage ∈ receipt.usage, ∃ cost ∈ usage.costMicrousd, 2 ^ 63 ≤ cost) ∧
              parsed = { receipt with reason, providerRequestId } := by
  simp only [reparse, Option.bind_eq_bind, Option.bind_eq_some_iff]
  constructor
  · rintro ⟨reason, reasonParsed, providerRequestId, idParsed, rest⟩
    split at rest
    · contradiction
    · rename_i bounded
      exact ⟨reason, providerRequestId, reasonParsed, idParsed, bounded,
        (Option.some.inj rest).symm⟩
  · rintro ⟨reason, providerRequestId, reasonParsed, idParsed, bounded, rfl⟩
    exact ⟨reason, reasonParsed, providerRequestId, idParsed, if_neg bounded⟩

/-- The two texts and the charge decide whether a receipt can be read back. -/
theorem Receipt.readable_iff {receipt : Receipt} :
    receipt.Readable ↔ PyStr.Plain receipt.reason ∧ PyStr.Plain receipt.providerRequestId ∧
      ¬ ∃ usage ∈ receipt.usage, ∃ cost ∈ usage.costMicrousd, 2 ^ 63 ≤ cost := by
  rw [Readable, reparse_eq_some_iff]
  constructor
  · rintro ⟨reason, providerRequestId, reasonParsed, idParsed, bounded, same⟩
    have sameReason : receipt.reason = reason := congrArg Receipt.reason same
    have sameId : receipt.providerRequestId = providerRequestId :=
      congrArg Receipt.providerRequestId same
    exact ⟨by rw [PyStr.Plain, reasonParsed, sameReason],
      by rw [PyStr.Plain, idParsed, sameId], bounded⟩
  · rintro ⟨reason, providerRequestId, bounded⟩
    exact ⟨_, _, reason, providerRequestId, bounded, rfl⟩

/-- Reading a receipt does not change its state. -/
theorem Receipt.state_of_reparse {receipt parsed : Receipt}
    (read : receipt.reparse = some parsed) : parsed.state = receipt.state := by
  obtain ⟨_, _, _, _, _, rfl⟩ := reparse_eq_some_iff.mp read
  rfl

/-- What was read is read back as it is. -/
theorem Receipt.readable_of_reparse {receipt parsed : Receipt}
    (read : receipt.reparse = some parsed) : parsed.Readable := by
  obtain ⟨reason, providerRequestId, reasonParsed, idParsed, bounded, rfl⟩ :=
    reparse_eq_some_iff.mp read
  exact reparse_eq_some_iff.mpr ⟨reason, providerRequestId,
    PyStr.reparseOption_of_reparseOption reasonParsed,
    PyStr.reparseOption_of_reparseOption idParsed, bounded, rfl⟩

/-- Only the two texts and the usage decide whether a receipt can be read back. -/
theorem Receipt.Readable.congr {receipt other : Receipt} (readable : receipt.Readable)
    (reason : other.reason = receipt.reason)
    (providerRequestId : other.providerRequestId = receipt.providerRequestId)
    (usage : other.usage = receipt.usage) : other.Readable := by
  rw [readable_iff, reason, providerRequestId, usage]
  exact readable_iff.mp readable

/-- Another state, with an ASCII reason, leaves a receipt readable. -/
theorem Receipt.Readable.moved {receipt : Receipt} (readable : receipt.Readable)
    (state : JobState) (text : String) :
    Receipt.Readable { receipt with state := state, reason := some (PyStr.ofString text) } := by
  obtain ⟨-, providerRequestId, bounded⟩ := readable_iff.mp readable
  exact readable_iff.mpr ⟨PyStr.plain_ofString text, providerRequestId, bounded⟩

/-- An answer without charge leaves a receipt readable. -/
theorem Receipt.Readable.answered {receipt : Receipt} (readable : receipt.Readable)
    (payload : String) (completedNs computedNs : Ns) :
    Receipt.Readable
      { receipt with
        state := .succeeded
        predictionJson := some payload
        completedNs := some completedNs
        computedNs := some computedNs
        cacheHit := true
        usage := some (Usage.ofCost 0) } := by
  obtain ⟨reason, providerRequestId, -⟩ := readable_iff.mp readable
  exact readable_iff.mpr ⟨reason, providerRequestId, by simp [Usage.ofCost]⟩

end AgminaRuntime
