import AgminaRuntime.DurableProgram
import AgminaRuntime.Ledger

/-!
# The single-coordinator journal

Every method of the store as a program over the ledger: a `with self.db:`
block is one transaction, and two transactions in a row leave a boundary at
which the process may die.  A crash never causes automatic inference replay.
-/

namespace AgminaRuntime

open Durable Durable.Program Keyed

/-- A program over the ledger and a volatile state `μ`. -/
abbrev LedgerProgram (μ α : Type) := Program Ledger μ PyExc α

/-- A dynamically typed value that an operator's import may contain. -/
inductive PyValue
  | str (text : PyStr)
  | int (value : Int)
  | other
  deriving DecidableEq

/-- A reconciliation entry that passed validation. -/
structure Charge where
  job : PyStr
  actualMicrousd : Nat
  evidenceRef : PyStr
  deriving DecidableEq

namespace Store

variable {μ : Type}

def event (atNs : Ns) (kind : Event) : LedgerProgram μ Unit :=
  commit fun ledger => ledger.note atNs kind

def session (tenant sessionId : Name) : LedgerProgram μ Session := do
  let ledger ← readDurable
  match ledger.sessions.lookup (tenant, sessionId) with
  | none => raise (.keyError "Unknown session")
  | some session => pure session

def putSession (session : Session) : LedgerProgram μ Unit :=
  commit fun ledger => ledger.putSession session

/-- Parse a stored row: the receipt is validated again on every read. -/
def readRow (row : JobRow) : Except PyExc (Job × Receipt) :=
  match row.receipt.reparse with
  | none => .error (.validationError "Receipt")
  | some receipt => .ok (row.job, receipt)

def readRows : List JobRow → Except PyExc (List (Job × Receipt))
  | [] => .ok []
  | row :: rows =>
      match readRow row with
      | .error exception => .error exception
      | .ok first =>
          match readRows rows with
          | .error exception => .error exception
          | .ok rest => .ok (first :: rest)

def job (tenant jobId : Name) : LedgerProgram μ (Job × Receipt) := do
  let ledger ← readDurable
  match ledger.jobs.lookup (tenant, jobId) with
  | none => raise (.keyError "Unknown job")
  | some row => ofExcept (readRow row)

/-- The rows of a tenant in journal order, all of them or those in one of the
given states. -/
def selectJobs (ledger : Ledger) (tenant : Name) (states : List JobState) : List JobRow :=
  ledger.jobs.rows.filter fun row =>
    row.job.tenant = tenant ∧ (states = [] ∨ row.receipt.state ∈ states)

def jobs (tenant : Name) (states : List JobState) : LedgerProgram μ (List (Job × Receipt)) := do
  let ledger ← readDurable
  ofExcept (readRows (selectJobs ledger tenant states))

/-- Original source IDs cannot acquire different pixels or times. -/
def addJob (job : Job) (receipt : Receipt) : LedgerProgram μ Unit :=
  transaction fun ledger => ledger.addJob job receipt

def receipt (tenant : Name) (receipt : Receipt) : LedgerProgram μ Unit :=
  commit fun ledger => ledger.writeReceipt tenant receipt

def reserve (job : Job) (endpoint : Endpoint) (nowNs : Ns) : LedgerProgram μ Unit :=
  transaction fun ledger => ledger.reserve job endpoint nowNs

/-- SQLite refuses an integer beyond 64 bits, and the attempt keeps what it
had. -/
def settle (job : Job) (usage : Option Usage) : LedgerProgram μ Unit :=
  transaction fun ledger =>
    match usage.bind (·.costMicrousd) with
    | none => .ok (ledger.settleAttempt job.key none)
    | some value =>
        if bounded : value < 2 ^ 63 then .ok (ledger.settleAttempt job.key (some ⟨value, bounded⟩))
        else .error .overflowError

def quarantine (pool : Name) (reason : String) : LedgerProgram μ Unit :=
  commit fun ledger => ledger.quarantinePool pool reason

def quarantined : LedgerProgram μ (List Name) := do
  let ledger ← readDurable
  pure ledger.quarantined

def releasePool (pool : Name) (evidence : PyStr) (nowNs : Ns) : LedgerProgram μ Unit := do
  if evidence.length = 0 then
    raise (.valueError "Require evidence of backend termination/restart")
  else
    commit fun ledger => ledger.releaseQuarantine pool
    event nowNs (.poolReleased pool evidence)

/-! ## Reconciliation -/

def malformedEntry : PyExc :=
  .valueError ("Each reconciliation requires a unique job ID, nonnegative charge, " ++
    "and bounded evidence reference")

/-- The validation pass of `reconcile_many`. -/
def checkEntries : List (PyValue × PyValue × PyValue) → List PyStr → Except PyExc (List Charge)
  | [], _ => .ok []
  | (.str job, .int actual, .str evidence) :: rest, seen =>
      if job.length = 0 ∨ 256 < job.length ∨ job ∈ seen ∨ actual < 0 ∨
          evidence.length = 0 ∨ 1024 < evidence.length then
        .error malformedEntry
      else
        match checkEntries rest (job :: seen) with
        | .error exception => .error exception
        | .ok charges => .ok (⟨job, actual.toNat, evidence⟩ :: charges)
  | _ :: _, _ => .error malformedEntry

/-- `SELECT * FROM attempts WHERE tenant=? AND job=?` with raw text; SQLite
text cannot hold a surrogate. -/
def findAttempt (ledger : Ledger) (tenant : Name) (job : PyStr) :
    Except PyExc (Option Attempt) :=
  if job.points.any PyStr.isSurrogate then .error .unicodeEncodeError
  else .ok (ledger.attempts.rows.find? fun attempt =>
    attempt.tenant = tenant ∧ PyStr.ofString attempt.job.text = job)

/-- The existence pass of `reconcile_many`. -/
def checkUnresolved (ledger : Ledger) (tenant : Name) : List Charge → Except PyExc Unit
  | [] => .ok ()
  | charge :: rest =>
      match findAttempt ledger tenant charge.job with
      | .error exception => .error exception
      | .ok none => .error (.valueError ("Unknown reconciliation job: " ++ charge.job))
      | .ok (some attempt) =>
          if attempt.actual.isSome then
            .error (.valueError ("Attempt is already settled: " ++ charge.job))
          else checkUnresolved ledger tenant rest

/-- The transaction of `reconcile_many`. -/
def applyCharges (tenant : Name) (nowNs : Ns) : List Charge → Ledger → Except PyExc Ledger
  | [], ledger => .ok ledger
  | charge :: rest, ledger =>
      if bounded : charge.actualMicrousd < 2 ^ 63 then
        match findAttempt ledger tenant charge.job with
        | .error exception => .error exception
        | .ok none =>
            .error (.valueError ("Attempt changed before reconciliation: " ++ charge.job))
        | .ok (some attempt) =>
            if attempt.actual.isSome then
              .error (.valueError ("Attempt changed before reconciliation: " ++ charge.job))
            else
              applyCharges tenant nowNs rest
                ((ledger.settleAttempt attempt.key (some ⟨charge.actualMicrousd, bounded⟩)).note
                  nowNs (.chargeReconciled attempt.job ⟨charge.actualMicrousd, bounded⟩
                    charge.evidenceRef))
      else .error .overflowError

/-- Atomically settle unresolved attempts from an explicit provider export. -/
def reconcileMany (tenant : Name) (entries : List (PyValue × PyValue × PyValue)) (nowNs : Ns) :
    LedgerProgram μ Unit := do
  let charges ← ofExcept (checkEntries entries [])
  let ledger ← readDurable
  ofExcept (checkUnresolved ledger tenant charges)
  transaction (applyCharges tenant nowNs charges)

def reconcile (tenant : Name) (job actualMicrousd evidence : PyValue) (nowNs : Ns) :
    LedgerProgram μ Unit :=
  reconcileMany tenant [(job, actualMicrousd, evidence)] nowNs

/-! ## Opening, recovery and budget extension -/

/-- `Store.__init__` on an existing ledger. -/
def openLedger (caps : BudgetCaps) : LedgerProgram μ Unit := do
  let ledger ← readDurable
  if ledger.caps ≠ caps then
    raise (.valueError
      "Campaign/caps changed: use explicit offline budget extension, never reset holds")
  else pure ()

def bindTenant (tenant : Name) : LedgerProgram μ Unit := do
  let ledger ← readDurable
  if ledger.tenant.isSome ∧ ledger.tenant ≠ some tenant then
    raise (.permissionError "A ledger belongs to one immutable tenant")
  else commit fun ledger => ledger.bindTenant tenant

/-- The attempt of a running job: its pool is quarantined and its quote is held
again. -/
def recoverRunning (tenant : Name) (job : Job) (old : Receipt) : LedgerProgram μ Unit := do
  if old.state = .running then do
    let ledger ← readDurable
    match ledger.attempts.lookup (tenant, job.id) with
    | none => pure ()
    | some attempt => do
        quarantine attempt.pool "restart_with_unconfirmed_remote_work"
        settle job none
  else pure ()

/-- The first loop of `recover`: a queued or running receipt is invalidated. -/
def recoverJob (tenant : Name) (nowNs : Ns) (entry : Job × Receipt) : LedgerProgram μ Unit := do
  let (job, old) := entry
  let state := if old.state = .running then .unknown else .cancelled
  receipt tenant { old with state := state, reason := some "coordinator_restart" }
  recoverRunning tenant job old
  event nowNs (.recoveryInvalidated job.id state)

/-- The second loop of `recover`: a cancelled or stale receipt can still have
remote compute in flight, and a crash can fall between the reservation and the
persistent RUNNING transition. -/
def recoverAttempt (tenant : Name) (nowNs : Ns) (attempt : Attempt) : LedgerProgram μ Unit := do
  quarantine attempt.pool "restart_with_unconfirmed_reserved_work"
  commit fun ledger => ledger.abandonAttempt (tenant, attempt.job)
  event nowNs (.recoveryUnconfirmedAttempt attempt.job attempt.pool)

/-- The third loop of `recover`: old sessions are closed. -/
def recoverSession (session : Session) : LedgerProgram μ Unit :=
  putSession { session with state := .closed }

def recover (tenant : Name) (nowNs : Ns) : LedgerProgram μ Unit := do
  let live ← jobs tenant [.queued, .running]
  forEach live (recoverJob tenant nowNs)
  let ledger ← readDurable
  forEach (ledger.attempts.rows.filter fun attempt =>
      attempt.tenant = tenant ∧ attempt.disposition = .reserved)
    (recoverAttempt tenant nowNs)
  let ledger ← readDurable
  forEach (ledger.sessions.rows.filter fun session => session.tenant = tenant) recoverSession

/-- Explicit nondecreasing cumulative caps and an approval reference. -/
def extendBudget (maxAttempts maxMicrousd : Int) (approvalRef : PyStr) (nowNs : Ns) :
    LedgerProgram μ Unit := do
  let ledger ← readDurable
  if approvalRef.length = 0 ∨ maxAttempts < ledger.caps.maxAttempts ∨
      maxMicrousd < ledger.caps.maxMicrousd then
    raise (.valueError
      "Explicit nondecreasing cumulative caps and an approval reference required")
  else do
    commit fun ledger =>
      { ledger with
        caps :=
          { ledger.caps with
            maxAttempts := maxAttempts.toNat
            maxMicrousd := maxMicrousd.toNat } }
    event nowNs (.budgetExtended approvalRef maxAttempts.toNat maxMicrousd.toNat)

end Store

end AgminaRuntime
