import AgminaRuntime.Backend
import AgminaRuntime.Config
import AgminaRuntime.KeyedTable

/-!
# The ledger

The tables of the SQLite journal and the changes that single transactions
make to them.  Payloads and results are durable; operational events carry
identifiers, counts and hashes only.
-/

namespace AgminaRuntime

open Keyed

/-- The kind and the metadata of an operational event. -/
inductive Event
  | coordinatorStarted (clockId : Name) (config : Fingerprint RuntimeConfig)
  | sessionOpened (sessionId : Name) (epoch : Ns)
  | sessionAdvanced (sessionId : Name) (epoch : Ns)
  | bufferObserved (sessionId : Name) (epoch : Ns) (bufferUntilNs : Option Ns)
  | submitted (jobId sessionId model : Name) (workload : Workload) (state : JobState)
      (evidenceCount : Nat) (requestFingerprint : Fingerprint Job) (reason : Option PyStr)
  | jobState (jobId : Name) (state : JobState) (reason : PyStr)
  | cacheHit (jobId : Name) (computedNs : Ns)
  | attemptReserved (jobId endpoint : Name) (quoteMicrousd : Ns)
  | dispatched (jobId endpoint pool : Name) (estimateNs : Nat) (latestNs : Int)
  | notSentAfterDispatchCheck (jobId : Name)
  | completed (jobId : Name) (state : JobState) (queueNs backendRoundtripNs : Int)
      (firstContentNs : Option Ns) (deadlineMet : Bool) (costMicrousd : Option Nat)
  | backendNotSent (jobId : Name) (reason : PyStr)
  | poolQuarantined (pool jobId : Name)
  | consumed (jobId consumerId : Name) (maxCurrentAgeNs : Option Int)
  | consumerReportedOutcome (jobId : Name) (outcome evidenceRef : String)
  | coordinatorStopped (unconfirmedPools : List Name)
  | recoveryInvalidated (jobId : Name) (state : JobState)
  | recoveryUnconfirmedAttempt (jobId pool : Name)
  | chargeReconciled (jobId : Name) (actualMicrousd : Ns) (evidenceRef : PyStr)
  | poolReleased (pool : Name) (evidenceRef : PyStr)
  | budgetExtended (approvalRef : PyStr) (maxAttempts maxMicrousd : Nat)
  deriving DecidableEq

structure EventRow where
  atNs : Ns
  event : Event
  deriving DecidableEq

structure JobRow where
  job : Job
  receipt : Receipt
  deriving DecidableEq

def JobRow.key (row : JobRow) : Name × Name := row.job.key

/-- The row with another receipt. -/
def JobRow.withReceipt (receipt : Receipt) (row : JobRow) : JobRow :=
  { row with receipt := receipt }

theorem JobRow.key_withReceipt (receipt : Receipt) (row : JobRow) :
    (row.withReceipt receipt).key = row.key := rfl

def Session.key (session : Session) : Name × Name := (session.tenant, session.id)

structure ObservationRow where
  tenant : Name
  session : Name
  body : Evidence
  deriving DecidableEq

def ObservationRow.key (row : ObservationRow) : Name × Name × Name :=
  (row.tenant, row.session, row.body.id)

inductive Disposition
  | reserved | settled | unknown
  deriving DecidableEq

structure Attempt where
  tenant : Name
  job : Name
  pool : Name
  endpoint : Name
  quote : Ns
  actual : Option Ns
  disposition : Disposition
  deriving DecidableEq

def Attempt.key (attempt : Attempt) : Name × Name := (attempt.tenant, attempt.job)

/-- What an attempt adds to the estimated spend: its actual charge once it is
known, else the quote it holds. -/
def Attempt.contribution (attempt : Attempt) : Nat :=
  match attempt.actual with
  | some charge => charge.val
  | none => attempt.quote.val

/-- The attempt with an actual charge, or with the quote held as unknown. -/
def Attempt.settle (actual : Option Ns) (attempt : Attempt) : Attempt :=
  { attempt with
    actual := actual
    disposition := if actual.isSome then .settled else .unknown }

theorem Attempt.key_settle (actual : Option Ns) (attempt : Attempt) :
    (attempt.settle actual).key = attempt.key := rfl

/-- The attempt with its disposition set to unknown. -/
def Attempt.abandon (attempt : Attempt) : Attempt :=
  { attempt with disposition := .unknown }

theorem Attempt.key_abandon (attempt : Attempt) : attempt.abandon.key = attempt.key := rfl

/-- The attempt that a reservation inserts. -/
def Attempt.reservation (job : Job) (endpoint : Endpoint) : Attempt :=
  ⟨job.tenant, job.id, endpoint.pool, endpoint.id, endpoint.reserveMicrousd, none, .reserved⟩

theorem Attempt.key_reservation (job : Job) (endpoint : Endpoint) :
    (Attempt.reservation job endpoint).key = job.key := rfl

structure QuarantineRow where
  pool : Name
  reason : String
  deriving DecidableEq

structure Ledger where
  caps : BudgetCaps
  tenant : Option Name
  sessions : Table (Name × Name) Session Session.key
  jobs : Table (Name × Name) JobRow JobRow.key
  observations : Table (Name × Name × Name) ObservationRow ObservationRow.key
  attempts : Table (Name × Name) Attempt Attempt.key
  quarantines : Table Name QuarantineRow QuarantineRow.pool
  events : List EventRow
  deriving DecidableEq

namespace Ledger

/-- A ledger that `Store.__init__` has just created. -/
def create (caps : BudgetCaps) : Ledger :=
  ⟨caps, none, .empty, .empty, .empty, .empty, .empty, []⟩

/-! ## Reading -/

def attemptCount (ledger : Ledger) : Nat := ledger.attempts.rows.length

/-- `sum(r["quote"] for r in rows if r["actual"] is None)`. -/
def heldMicrousd (ledger : Ledger) : Nat :=
  ledger.attempts.total fun attempt =>
    if attempt.actual = none then attempt.quote.val else 0

/-- `sum(r["actual"] for r in rows if r["actual"] is not None)`. -/
def knownMicrousd (ledger : Ledger) : Nat :=
  ledger.attempts.total fun attempt => (attempt.actual.map Fin.val).getD 0

def admissionTotalMicrousd (ledger : Ledger) : Nat :=
  ledger.knownMicrousd + ledger.heldMicrousd

theorem admissionTotalMicrousd_eq (ledger : Ledger) :
    ledger.admissionTotalMicrousd = ledger.attempts.total Attempt.contribution := by
  unfold admissionTotalMicrousd knownMicrousd heldMicrousd Table.total
  induction ledger.attempts.rows with
  | nil => rfl
  | cons attempt rows ih =>
      simp only [List.map_cons, List.sum_cons, ← ih, Attempt.contribution]
      cases attempt.actual <;> simp <;> omega

/-- `Store.quarantined`. -/
def quarantined (ledger : Ledger) : List Name :=
  ledger.quarantines.rows.map QuarantineRow.pool

/-! ## Changes made by single transactions -/

/-- Append an operational event. -/
def note (ledger : Ledger) (atNs : Ns) (event : Event) : Ledger :=
  { ledger with events := ledger.events ++ [⟨atNs, event⟩] }

/-- `INSERT OR REPLACE INTO sessions`. -/
def putSession (ledger : Ledger) (session : Session) : Ledger :=
  { ledger with sessions := ledger.sessions.replace session }

/-- `UPDATE jobs SET receipt=?,state=? WHERE tenant=? AND id=?`. -/
def writeReceipt (ledger : Ledger) (tenant : Name) (receipt : Receipt) : Ledger :=
  { ledger with
    jobs := ledger.jobs.update (tenant, receipt.jobId) (JobRow.withReceipt receipt)
      (JobRow.key_withReceipt receipt) }

/-- The observation part of `add_job`: the first observation whose stored body
differs raises. -/
def admitObservations (tenant session : Name) :
    List Observation → Table (Name × Name × Name) ObservationRow ObservationRow.key →
      Except PyExc (Table (Name × Name × Name) ObservationRow ObservationRow.key)
  | [], table => .ok table
  | observation :: rest, table =>
      let row : ObservationRow := ⟨tenant, session, observation.toEvidence⟩
      match table.lookup row.key with
      | some previous =>
          if previous.body ≠ row.body then
            .error (.valueError
              "Observation identity reused with different source/timestamp/content")
          else admitObservations tenant session rest (table.insertOrIgnore row)
      | none => admitObservations tenant session rest (table.insertOrIgnore row)

/-- The body of `add_job`. -/
def addJob (ledger : Ledger) (job : Job) (receipt : Receipt) : Except PyExc Ledger :=
  match admitObservations job.tenant job.sessionId job.observations ledger.observations with
  | .error exception => .error exception
  | .ok observations =>
      match ledger.jobs.insert? ⟨job, receipt⟩ with
      | none => .error .integrityError
      | some jobs => .ok { ledger with observations := observations, jobs := jobs }

/-- The body of `reserve`: the ceilings are checked before the insertion. -/
def reserve (ledger : Ledger) (job : Job) (endpoint : Endpoint) (nowNs : Ns) :
    Except PyExc Ledger :=
  if ledger.caps.maxAttempts ≤ ledger.attemptCount ∨
      ledger.caps.maxMicrousd <
        ledger.admissionTotalMicrousd + endpoint.reserveMicrousd.val then
    .error (.permissionError "attempt_or_cost_ceiling")
  else
    match ledger.attempts.insert? (.reservation job endpoint) with
    | none => .error .integrityError
    | some attempts =>
        .ok ({ ledger with attempts := attempts }.note nowNs
          (.attemptReserved job.id endpoint.id endpoint.reserveMicrousd))

/-- `UPDATE attempts SET actual=?,disposition=? WHERE tenant=? AND job=?`. -/
def settleAttempt (ledger : Ledger) (key : Name × Name) (actual : Option Ns) : Ledger :=
  { ledger with
    attempts := ledger.attempts.update key (Attempt.settle actual)
      (Attempt.key_settle actual) }

/-- `UPDATE attempts SET disposition='unknown' WHERE tenant=? AND job=?`. -/
def abandonAttempt (ledger : Ledger) (key : Name × Name) : Ledger :=
  { ledger with
    attempts := ledger.attempts.update key Attempt.abandon Attempt.key_abandon }

/-- `INSERT OR REPLACE INTO quarantines`. -/
def quarantinePool (ledger : Ledger) (pool : Name) (reason : String) : Ledger :=
  { ledger with quarantines := ledger.quarantines.replace ⟨pool, reason⟩ }

/-- `DELETE FROM quarantines WHERE pool=?`. -/
def releaseQuarantine (ledger : Ledger) (pool : Name) : Ledger :=
  { ledger with quarantines := ledger.quarantines.erase pool }

/-- `INSERT OR IGNORE INTO meta VALUES ('tenant',?)`. -/
def bindTenant (ledger : Ledger) (tenant : Name) : Ledger :=
  { ledger with tenant := some (ledger.tenant.getD tenant) }

/-! ## Lookups after a change -/

section Lookups

variable (ledger : Ledger) {key : Name × Name}

theorem mem_quarantined {pool : Name} :
    pool ∈ ledger.quarantined ↔ (ledger.quarantines.lookup pool).isSome := by
  rw [Option.isSome_iff_exists]
  simp only [quarantined, List.mem_map, Table.lookup_eq_some_iff]

theorem mem_quarantined_quarantinePool {pool other : Name} {reason : String} :
    other ∈ (ledger.quarantinePool pool reason).quarantined ↔
      other = pool ∨ other ∈ ledger.quarantined := by
  rw [mem_quarantined, mem_quarantined, quarantinePool, Table.lookup_replace]
  by_cases same : pool = other
  · simp [same]
  · simp [same, Ne.symm same]

theorem mem_quarantined_releaseQuarantine {pool other : Name} :
    other ∈ (ledger.releaseQuarantine pool).quarantined ↔
      other ≠ pool ∧ other ∈ ledger.quarantined := by
  rw [mem_quarantined, mem_quarantined, releaseQuarantine, Table.lookup_erase]
  by_cases same : other = pool <;> simp [same]

theorem lookup_putSession {session : Session} :
    (ledger.putSession session).sessions.lookup key =
      if session.key = key then some session else ledger.sessions.lookup key :=
  Table.lookup_replace

theorem lookup_putSession_of_eq {session : Session} (same : session.key = key) :
    (ledger.putSession session).sessions.lookup key = some session := by
  rw [lookup_putSession, if_pos same]

theorem lookup_putSession_of_ne {session : Session} (differs : session.key ≠ key) :
    (ledger.putSession session).sessions.lookup key = ledger.sessions.lookup key := by
  rw [lookup_putSession, if_neg differs]

theorem lookup_writeReceipt {tenant : Name} {receipt : Receipt} :
    (ledger.writeReceipt tenant receipt).jobs.lookup key =
      if key = (tenant, receipt.jobId) then
        (ledger.jobs.lookup (tenant, receipt.jobId)).map (JobRow.withReceipt receipt)
      else ledger.jobs.lookup key := by
  rw [writeReceipt, Table.lookup_update]

theorem lookup_settleAttempt {target : Name × Name} {actual : Option Ns} :
    (ledger.settleAttempt target actual).attempts.lookup key =
      if key = target then (ledger.attempts.lookup target).map (Attempt.settle actual)
      else ledger.attempts.lookup key := by
  rw [settleAttempt, Table.lookup_update]

theorem lookup_abandonAttempt {target : Name × Name} :
    (ledger.abandonAttempt target).attempts.lookup key =
      if key = target then (ledger.attempts.lookup target).map Attempt.abandon
      else ledger.attempts.lookup key := by
  rw [abandonAttempt, Table.lookup_update]

/-- What a submission that was stored has changed. -/
theorem addJob_ok {after : Ledger} {job : Job} {receipt : Receipt}
    (added : ledger.addJob job receipt = .ok after) :
    ∃ observations jobs, ledger.jobs.insert? ⟨job, receipt⟩ = some jobs ∧
      after = { ledger with observations := observations, jobs := jobs } := by
  unfold addJob at added
  cases admitted : admitObservations job.tenant job.sessionId job.observations
      ledger.observations with
  | error exception =>
      rw [admitted] at added
      contradiction
  | ok observations =>
      rw [admitted] at added
      cases inserted : ledger.jobs.insert? ⟨job, receipt⟩ with
      | none =>
          rw [inserted] at added
          contradiction
      | some jobs =>
          rw [inserted] at added
          simp only [Except.ok.injEq] at added
          exact ⟨observations, jobs, rfl, added.symm⟩

theorem lookup_addJob {after : Ledger} {job : Job} {receipt : Receipt}
    (added : ledger.addJob job receipt = .ok after) :
    after.jobs.lookup key =
      if job.key = key then some ⟨job, receipt⟩ else ledger.jobs.lookup key := by
  obtain ⟨_, _, inserted, rfl⟩ := ledger.addJob_ok added
  exact Table.lookup_insert? inserted

/-- A submission of a new job fails only on an observation that was stored with
other evidence. -/
theorem addJob_error_iff {job : Job} {receipt : Receipt} {exception : PyExc}
    (absent : ledger.jobs.lookup job.key = none) :
    ledger.addJob job receipt = .error exception ↔
      admitObservations job.tenant job.sessionId job.observations ledger.observations =
        .error exception := by
  unfold addJob
  cases admitted : admitObservations job.tenant job.sessionId job.observations
      ledger.observations with
  | error other => simp
  | ok observations =>
      cases inserted : ledger.jobs.insert? ⟨job, receipt⟩ with
      | none =>
          rw [Table.insert?_eq_none_iff, show JobRow.key ⟨job, receipt⟩ = job.key from rfl,
            absent] at inserted
          contradiction
      | some jobs => simp

theorem admitObservations_error {tenant session : Name} {observations : List Observation}
    {table : Table (Name × Name × Name) ObservationRow ObservationRow.key} {exception : PyExc}
    (failed : admitObservations tenant session observations table = .error exception) :
    ∃ text, exception = .valueError text := by
  induction observations generalizing table with
  | nil => simp [admitObservations] at failed
  | cons observation rest ih =>
      simp only [admitObservations] at failed
      split at failed
      · split at failed
        · exact ⟨_, (Except.error.inj failed).symm⟩
        · exact ih failed
      · exact ih failed

/-- What a reservation that was committed has been checked for and has changed. -/
theorem reserve_ok {after : Ledger} {job : Job} {endpoint : Endpoint} {nowNs : Ns}
    (reserved : ledger.reserve job endpoint nowNs = .ok after) :
    ledger.attemptCount < ledger.caps.maxAttempts ∧
      ledger.admissionTotalMicrousd + endpoint.reserveMicrousd.val ≤ ledger.caps.maxMicrousd ∧
        ∃ attempts, ledger.attempts.insert? (.reservation job endpoint) = some attempts ∧
          after = { ledger with attempts := attempts }.note nowNs
            (.attemptReserved job.id endpoint.id endpoint.reserveMicrousd) := by
  unfold reserve at reserved
  split at reserved
  · contradiction
  · rename_i ceilings
    simp only [not_or, not_le, not_lt] at ceilings
    cases inserted : ledger.attempts.insert? (.reservation job endpoint) with
    | none =>
        rw [inserted] at reserved
        contradiction
    | some attempts =>
        rw [inserted] at reserved
        simp only [Except.ok.injEq] at reserved
        exact ⟨ceilings.1, ceilings.2, attempts, rfl, reserved.symm⟩

/-- A reservation of a job without an attempt fails only on the ceilings. -/
theorem reserve_error {job : Job} {endpoint : Endpoint} {nowNs : Ns} {exception : PyExc}
    (absent : ledger.attempts.lookup job.key = none)
    (failed : ledger.reserve job endpoint nowNs = .error exception) :
    exception = .permissionError "attempt_or_cost_ceiling" := by
  unfold reserve at failed
  split at failed
  · exact (Except.error.inj failed).symm
  · cases inserted : ledger.attempts.insert? (.reservation job endpoint) with
    | none =>
        rw [Table.insert?_eq_none_iff, Attempt.key_reservation, absent] at inserted
        contradiction
    | some attempts =>
        rw [inserted] at failed
        contradiction

end Lookups

end Ledger

end AgminaRuntime
