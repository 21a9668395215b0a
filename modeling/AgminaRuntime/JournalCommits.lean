import AgminaRuntime.Runtime

/-!
# What one commit can do

Every change of the journal is one committed transaction.  `Commit` lists
them, each with what the program has checked before it: who may write a
receipt and between which states, when an attempt may be reserved, settled or
held again, and how a session moves.  The properties of whole runs rest on
this list alone; which program makes which commit is proved elsewhere.

`Ledger.Sound` is what every commit preserves, so it also holds of the ledger
that a crash leaves behind.
-/

namespace AgminaRuntime

open Keyed

/-! ## Receipts and their states -/

/-- The states of a job that waits for a call or has one. -/
def JobState.isLive : JobState → Bool
  | queued | running => true
  | _ => false

/-- The states from which no result is ever accepted. -/
def JobState.isDead : JobState → Bool
  | rejected | expired | stale | cancelled | superseded | failed | unknown => true
  | _ => false

/-- The states of a receipt whose task has not ended. -/
def JobState.inTask : JobState → Bool
  | running | expired | stale | cancelled => true
  | _ => false

/-- The job lifecycle: where a receipt may go from each state. -/
def JobState.successors : JobState → List JobState
  | queued => [running, succeeded, rejected, expired, stale, cancelled, superseded]
  | running => [succeeded, expired, stale, cancelled, failed, unknown]
  | succeeded => [consumed, cancelled]
  | _ => []

/-- What a stored receipt must carry in its state. -/
structure Receipt.Complete (receipt : Receipt) : Prop where
  readable : receipt.state.isLive = true → receipt.Readable
  predicted : receipt.state = .succeeded ∨ receipt.state = .consumed →
    receipt.predictionJson.isSome = true
  claimed : receipt.state = .consumed ↔ receipt.consumedBy.isSome = true
  returnable : receipt.state = .consumed → receipt.Readable
  unanswered : receipt.state.isLive = true → receipt.cacheHit = false
  started : receipt.state = .running → receipt.startedNs.isSome = true

/-- The receipt of a job that was answered without a call, or refused one. -/
def Receipt.spared (receipt : Receipt) : Bool :=
  receipt.cacheHit || receipt.state = .rejected

theorem Receipt.spared_of_moved {before after : Receipt} (sameHit : after.cacheHit = before.cacheHit)
    (accepted : after.state ≠ .rejected) (spared : after.spared = true) : before.spared = true := by
  simp only [Receipt.spared, accepted, decide_false, Bool.or_false] at spared
  rw [Receipt.spared, ← sameHit, spared, Bool.true_or]

/-- A cache hit: the receipt carries the payload and the computation time of an
entry under the job's own key, which is still young enough. -/
def Receipt.ServedFrom (config : RuntimeConfig) (entries : List CacheEntry) (job : Job)
    (receipt : Receipt) : Prop :=
  ∃ entry ∈ entries, ∃ contract ∈ config.modelContract job.model,
    HistoricalCache.key job contract.fingerprint = some entry.key ∧
      receipt.predictionJson = some entry.payload ∧
        receipt.computedNs = some entry.computedNs ∧
          ∃ completed, receipt.completedNs = some completed ∧
            (completed.val : Int) - entry.computedNs.val < config.cacheTtlNs.val

/-- The two receipts carry the same answer. -/
def Receipt.SameAnswer (before after : Receipt) : Prop :=
  after.cacheHit = before.cacheHit ∧ after.predictionJson = before.predictionJson ∧
    after.computedNs = before.computedNs ∧ after.completedNs = before.completedNs

/-- Who commits.  A coordinator has a cache, a submission knows its clock
reading, an orderly task does not move a receipt that has left RUNNING, a
legible one writes no text that cannot be read back, a clean recovery meets no
settled attempt of a running job, and an operator releases at most one pool. -/
inductive Author
  | coordinator (config : RuntimeConfig) (entries : List CacheEntry)
  | submission (nowNs : Ns)
  | heartbeat (session : Name)
  | task (orderly legible : Bool)
  | recovery (clean : Bool)
  | operator (released : Option Name)

/-- The receipt writes of an author: along the lifecycle, or by a task on a
receipt that left RUNNING before the task ended. -/
def Author.Moves (who : Author) (before after : JobState) : Prop :=
  after ∈ before.successors ∨
    ∃ orderly legible, who = .task orderly legible ∧
      before ∈ [JobState.expired, .stale, .cancelled] ∧
        (after = before ∨ orderly = false ∧ after ∈ [JobState.expired, .stale])

/-- The author writes only what can be read back. -/
def Author.Legible : Author → Prop
  | .task _ legible => legible = true
  | _ => True

/-- The author may answer a job with this receipt from its cache. -/
def Author.Serves (who : Author) (job : Job) (receipt : Receipt) : Prop :=
  ∃ config entries, who = .coordinator config entries ∧ receipt.ServedFrom config entries job

/-! ## The sessions of admitted jobs -/

/-- The session of an admitted job has kept the job's generation or has left
its epoch for a later one. -/
def Session.Admits (session : Session) (job : Job) : Prop :=
  job.epoch ≤ session.epoch ∧
    (session.epoch = job.epoch →
      session.taskRevision = job.taskRevision ∧ session.clockId = job.clockId)

def Ledger.Admitted (ledger : Ledger) (job : Job) : Prop :=
  ∃ session, ledger.sessions.lookup job.sessionKey = some session ∧ session.Admits job

/-- No settled attempt belongs to a job whose receipt says RUNNING. -/
def Ledger.SettledEnded (ledger : Ledger) : Prop :=
  ∀ attempt ∈ ledger.attempts.rows, attempt.actual.isSome = true →
    ∀ row ∈ ledger.jobs.lookup attempt.key, row.receipt.state ≠ .running

instance (ledger : Ledger) : Decidable ledger.SettledEnded :=
  inferInstanceAs (Decidable (∀ attempt ∈ ledger.attempts.rows, attempt.actual.isSome = true →
    ∀ row ∈ ledger.jobs.lookup attempt.key, row.receipt.state ≠ .running))

/-- No queued job has an attempt. -/
def Ledger.Waiting (ledger : Ledger) : Prop :=
  ∀ key row, ledger.jobs.lookup key = some row → row.receipt.state = .queued →
    ledger.attempts.lookup key = none

/-- A dependency is stored, of the job's generation, and its evidence is declared
again. -/
def DependencyMet (ledger : Ledger) (job : Job) (dependency : Name) : Prop :=
  ∃ row, ledger.jobs.lookup (job.tenant, dependency) = some row ∧
    row.receipt.reparse ≠ none ∧
      (row.job.sessionId, row.job.epoch, row.job.taskRevision) =
        (job.sessionId, job.epoch, job.taskRevision) ∧
        ∀ o ∈ row.job.observations,
          o.sourceFingerprint ∈ job.observations.map Observation.sourceFingerprint

/-! ## Commits -/

/-- One committed transaction. -/
inductive Commit : Author → Ledger → Ledger → Prop
  | note {who before} (atNs : Ns) (kind : Event) : Commit who before (before.note atNs kind)
  | write {who before} {row : JobRow} {receipt : Receipt}
      (found : before.jobs.lookup row.key = some row)
      (sameJob : receipt.jobId = row.job.id)
      (complete : receipt.Complete)
      (moves : who.Moves row.receipt.state receipt.state)
      (cached : row.receipt.state = .queued → receipt.state = .succeeded →
        receipt.cacheHit = true)
      (spared : receipt.spared = true →
        row.receipt.spared = true ∨ before.attempts.lookup row.key = none)
      (legible : who.Legible → receipt.Readable)
      (answered : receipt.cacheHit = true →
        row.receipt.SameAnswer receipt ∨
          row.receipt.state = .queued ∧ who.Serves row.job receipt) :
      Commit who before (before.writeReceipt row.job.tenant receipt)
  | addJob {before after nowNs} {job : Job} {receipt : Receipt}
      (tenant : before.tenant = some job.tenant)
      (session : (before.sessions.lookup job.sessionKey).isSome = true)
      (sameJob : receipt.jobId = job.id)
      (complete : receipt.Complete)
      (unanswered : receipt.cacheHit = false)
      (readable : receipt.Readable)
      (initial : receipt.state = .queued ∨ receipt.state = .rejected)
      (admitted : receipt.state = .queued → before.Admitted job)
      (past : receipt.state = .queued → job.snapshotNs ≤ nowNs)
      (dependencies : ∀ dependency ∈ job.dependencies, DependencyMet before job dependency)
      (added : before.addJob job receipt = .ok after) :
      Commit (.submission nowNs) before after
  | turnover {before config entries} {session : Session}
      (tenant : before.tenant = some session.tenant)
      (next : Runtime.nextEpoch (before.sessions.lookup session.key) = some session.epoch) :
      Commit (.coordinator config entries) before (before.putSession session)
  | heartbeat {before} {old : Session} (updatedNs : Ns) (bufferUntilNs : Option Ns)
      (found : before.sessions.lookup old.key = some old) :
      Commit (.heartbeat old.id) before (before.putSession { old with updatedNs, bufferUntilNs })
  | closeSession {before clean} {old : Session}
      (found : before.sessions.lookup old.key = some old) :
      Commit (.recovery clean) before (before.putSession { old with state := .closed })
  | reserve {before after config entries} {row : JobRow} {endpoint : Endpoint} {nowNs : Ns}
      (found : before.jobs.lookup row.key = some row)
      (queued : row.receipt.state = .queued)
      (open_ : endpoint.pool ∉ before.quarantined)
      (waiting : before.Waiting)
      (ended : before.SettledEnded)
      (reserved : before.reserve row.job endpoint nowNs = .ok after) :
      Commit (.coordinator config entries) before after
  | settle {before orderly legible} {attempt : Attempt} (actual : Option Ns)
      (found : before.attempts.lookup attempt.key = some attempt)
      (unsettled : attempt.actual = none) :
      Commit (.task orderly legible) before (before.settleAttempt attempt.key actual)
  | rehold {before clean} {attempt : Attempt}
      (found : before.attempts.lookup attempt.key = some attempt)
      (unsettled : clean = true → attempt.actual = none) :
      Commit (.recovery clean) before (before.settleAttempt attempt.key none)
  | abandon {before clean} {attempt : Attempt}
      (found : before.attempts.lookup attempt.key = some attempt) :
      Commit (.recovery clean) before (before.abandonAttempt attempt.key)
  | quarantine {who before} (pool : Name) (reason : String) :
      Commit who before (before.quarantinePool pool reason)
  | bindTenant {before clean} (tenant : Name)
      (unbound : before.tenant = none ∨ before.tenant = some tenant) :
      Commit (.recovery clean) before (before.bindTenant tenant)
  | release {before} (pool : Name) :
      Commit (.operator (some pool)) before (before.releaseQuarantine pool)
  | reconcile {released before after} {tenant : Name} {nowNs : Ns} {charges : List Charge}
      (applied : Store.applyCharges tenant nowNs charges before = .ok after) :
      Commit (.operator released) before after
  | extendBudget {released before} (maxAttempts maxMicrousd : Nat)
      (attempts : before.caps.maxAttempts ≤ maxAttempts)
      (microusd : before.caps.maxMicrousd ≤ maxMicrousd) :
      Commit (.operator released) before
        { before with caps := { before.caps with maxAttempts, maxMicrousd } }

/-! ## Reconciled charges -/

/-- What each single reconciled charge preserves, a committed batch preserves. -/
theorem Store.applyCharges_preserves (property : Ledger → Prop) {tenant : Name} {nowNs : Ns}
    {charges : List Charge} {before after : Ledger}
    (preserved : ∀ (ledger : Ledger) (attempt : Attempt) (actual : Ns) (kind : Event),
      ledger.attempts.lookup attempt.key = some attempt → attempt.actual = none →
        (∃ charge ∈ charges, charge.job = PyStr.ofString attempt.job.text) →
          property ledger →
            property ((ledger.settleAttempt attempt.key (some actual)).note nowNs kind))
    (applied : Store.applyCharges tenant nowNs charges before = .ok after)
    (holds : property before) : property after := by
  induction charges generalizing before with
  | nil =>
      simp only [applyCharges, Except.ok.injEq] at applied
      rwa [← applied]
  | cons charge rest ih =>
      unfold applyCharges at applied
      split at applied
      · rename_i bounded
        cases found : findAttempt before tenant charge.job with
        | error exception =>
            rw [found] at applied
            contradiction
        | ok attempt? =>
            rw [found] at applied
            cases attempt? with
            | none => contradiction
            | some attempt =>
                simp only at applied
                split at applied
                · contradiction
                · rename_i unsettled
                  unfold findAttempt at found
                  split at found
                  · contradiction
                  · rw [Except.ok.injEq] at found
                    have member := List.mem_of_find?_eq_some found
                    have named := List.find?_some found
                    simp only [decide_eq_true_eq] at named
                    refine ih ?_ applied ?_
                    · intro ledger other actual kind stored open_ ⟨charge, member, sameJob⟩
                      exact preserved ledger other actual kind stored open_
                        ⟨charge, List.mem_cons_of_mem _ member, sameJob⟩
                    · exact preserved before attempt _ _ (Table.lookup_of_mem member)
                        (by simpa using unsettled)
                        ⟨charge, List.mem_cons_self, named.2.symm⟩ holds
      · contradiction

/-- A batch of charges changes attempts and events only. -/
theorem Store.applyCharges_frame {tenant : Name} {nowNs : Ns} {charges : List Charge}
    {before after : Ledger} (applied : Store.applyCharges tenant nowNs charges before = .ok after) :
    ∃ attempts events, after = { before with attempts := attempts, events := events } := by
  refine Store.applyCharges_preserves
    (fun ledger =>
      ∃ attempts events, ledger = { before with attempts := attempts, events := events })
    ?_ applied ⟨before.attempts, before.events, rfl⟩
  rintro ledger attempt actual kind _ _ _ ⟨attempts, events, rfl⟩
  exact ⟨_, _, rfl⟩

/-! ## Sessions across a commit -/

theorem Runtime.nextEpoch_some {old : Session} {epoch : Ns}
    (next : Runtime.nextEpoch (some old) = some epoch) : epoch.val = old.epoch.val + 1 := by
  simp only [nextEpoch] at next
  split at next
  · rw [Option.some.injEq] at next
    rw [← next]
  · contradiction

/-- How a commit changes a stored session. -/
inductive SessionMove : Author → Session → Session → Prop
  | kept {who : Author} {session : Session} : SessionMove who session session
  | turned {who : Author} {before after : Session} (later : after.epoch.val = before.epoch.val + 1) :
      SessionMove who before after
  | beaten {before : Session} (updatedNs : Ns) (bufferUntilNs : Option Ns) :
      SessionMove (.heartbeat before.id) before { before with updatedNs, bufferUntilNs }
  | closed {clean : Bool} {before : Session} :
      SessionMove (.recovery clean) before { before with state := .closed }

section Frames

variable {who : Author} {before after : Ledger} {key : Name × Name}

theorem Commit.session_kept (commit : Commit who before after) {session : Session}
    (found : before.sessions.lookup key = some session) :
    ∃ next, after.sessions.lookup key = some next ∧ SessionMove who session next := by
  cases commit with
  | addJob _ _ _ _ _ _ _ _ _ _ added =>
      obtain ⟨_, _, _, rfl⟩ := before.addJob_ok added
      exact ⟨session, found, .kept⟩
  | reserve _ _ _ _ _ reserved =>
      obtain ⟨_, _, _, _, rfl⟩ := before.reserve_ok reserved
      exact ⟨session, found, .kept⟩
  | reconcile applied =>
      obtain ⟨_, _, rfl⟩ := Store.applyCharges_frame applied
      exact ⟨session, found, .kept⟩
  | @turnover _ _ _ started tenant next =>
      by_cases same : started.key = key
      · rw [same, found] at next
        exact ⟨started, before.lookup_putSession_of_eq same,
          .turned (Runtime.nextEpoch_some next)⟩
      · refine ⟨session, ?_, .kept⟩
        rw [before.lookup_putSession_of_ne]
        exacts [found, same]
  | @heartbeat _ old updatedNs bufferUntilNs stored =>
      by_cases same : old.key = key
      · subst same
        obtain rfl : old = session := Option.some.inj (stored.symm.trans found)
        exact ⟨_, before.lookup_putSession_of_eq rfl, .beaten updatedNs bufferUntilNs⟩
      · refine ⟨session, ?_, .kept⟩
        rw [before.lookup_putSession_of_ne]
        exacts [found, same]
  | @closeSession _ _ old stored =>
      by_cases same : old.key = key
      · subst same
        obtain rfl : old = session := Option.some.inj (stored.symm.trans found)
        exact ⟨_, before.lookup_putSession_of_eq rfl, .closed⟩
      · refine ⟨session, ?_, .kept⟩
        rw [before.lookup_putSession_of_ne]
        exacts [found, same]
  | _ => exact ⟨session, found, .kept⟩

/-- A session that appears is of the ledger's tenant. -/
theorem Commit.session_new (commit : Commit who before after) {session : Session}
    (absent : before.sessions.lookup key = none)
    (found : after.sessions.lookup key = some session) :
    before.tenant = some session.tenant := by
  have unchanged : before.sessions.lookup key ≠ some session := by
    rw [absent]
    simp
  cases commit with
  | addJob _ _ _ _ _ _ _ _ _ _ added =>
      obtain ⟨_, _, _, rfl⟩ := before.addJob_ok added
      exact absurd found unchanged
  | reserve _ _ _ _ _ reserved =>
      obtain ⟨_, _, _, _, rfl⟩ := before.reserve_ok reserved
      exact absurd found unchanged
  | reconcile applied =>
      obtain ⟨_, _, rfl⟩ := Store.applyCharges_frame applied
      exact absurd found unchanged
  | @turnover _ _ _ started tenant next =>
      by_cases same : started.key = key
      · rw [before.lookup_putSession_of_eq same, Option.some.injEq] at found
        rwa [← found]
      · rw [before.lookup_putSession_of_ne same] at found
        exact absurd found unchanged
  | @heartbeat _ old updatedNs bufferUntilNs stored =>
      have differs : old.key ≠ key := by
        rintro rfl
        rw [absent] at stored
        contradiction
      rw [before.lookup_putSession_of_ne] at found
      exacts [absurd found unchanged, differs]
  | @closeSession _ _ old stored =>
      have differs : old.key ≠ key := by
        rintro rfl
        rw [absent] at stored
        contradiction
      rw [before.lookup_putSession_of_ne] at found
      exacts [absurd found unchanged, differs]
  | _ => exact absurd found unchanged

/-- The tenant of a ledger is immutable. -/
theorem Commit.tenant_kept (commit : Commit who before after) {tenant : Name}
    (bound : before.tenant = some tenant) : after.tenant = some tenant := by
  cases commit with
  | addJob _ _ _ _ _ _ _ _ _ _ added =>
      obtain ⟨_, _, _, rfl⟩ := before.addJob_ok added
      exact bound
  | reserve _ _ _ _ _ reserved =>
      obtain ⟨_, _, _, _, rfl⟩ := before.reserve_ok reserved
      exact bound
  | reconcile applied =>
      obtain ⟨_, _, rfl⟩ := Store.applyCharges_frame applied
      exact bound
  | bindTenant other unbound => simp [Ledger.bindTenant, bound]
  | _ => exact bound

/-! ## Jobs across a commit -/

/-- How a commit changes the row of a stored job. -/
inductive RowMove : Author → JobRow → JobRow → Prop
  | kept {who : Author} {row : JobRow} : RowMove who row row
  | written {who : Author} {row : JobRow} {receipt : Receipt}
      (sameJob : receipt.jobId = row.job.id)
      (complete : receipt.Complete)
      (moves : who.Moves row.receipt.state receipt.state)
      (cached : row.receipt.state = .queued → receipt.state = .succeeded →
        receipt.cacheHit = true)
      (legible : who.Legible → receipt.Readable)
      (answered : receipt.cacheHit = true →
        row.receipt.SameAnswer receipt ∨
          row.receipt.state = .queued ∧ who.Serves row.job receipt) :
      RowMove who row (row.withReceipt receipt)

theorem RowMove.job_eq {row next : JobRow} (move : RowMove who row next) :
    next.job = row.job := by
  cases move <;> rfl

theorem Ledger.lookup_writeReceipt_self {ledger : Ledger} {row : JobRow} {receipt : Receipt}
    (found : ledger.jobs.lookup row.key = some row) (sameJob : receipt.jobId = row.job.id) :
    (ledger.writeReceipt row.job.tenant receipt).jobs.lookup row.key =
      some (row.withReceipt receipt) := by
  have keyEq : row.key = (row.job.tenant, receipt.jobId) := by rw [sameJob]; rfl
  rw [Ledger.lookup_writeReceipt, if_pos keyEq, ← keyEq, found, Option.map_some]

theorem Ledger.lookup_writeReceipt_of_ne {ledger : Ledger} {row : JobRow} {receipt : Receipt}
    (sameJob : receipt.jobId = row.job.id) (differs : key ≠ row.key) :
    (ledger.writeReceipt row.job.tenant receipt).jobs.lookup key = ledger.jobs.lookup key := by
  have keyEq : row.key = (row.job.tenant, receipt.jobId) := by rw [sameJob]; rfl
  rw [Ledger.lookup_writeReceipt, if_neg (by rwa [← keyEq])]

theorem Commit.row_kept (commit : Commit who before after) {row : JobRow}
    (found : before.jobs.lookup key = some row) :
    ∃ next, after.jobs.lookup key = some next ∧ RowMove who row next ∧
      (next.receipt.spared = true →
        row.receipt.spared = true ∨ before.attempts.lookup key = none) := by
  cases commit with
  | addJob _ _ _ _ _ _ _ _ _ _ added =>
      obtain ⟨_, _, inserted, rfl⟩ := before.addJob_ok added
      refine ⟨row, ?_, .kept, .inl⟩
      rw [Table.lookup_insert? inserted, if_neg, found]
      rintro rfl
      rw [(Table.insert?_eq_some_iff.mp inserted).1] at found
      contradiction
  | reserve _ _ _ _ _ reserved =>
      obtain ⟨_, _, _, _, rfl⟩ := before.reserve_ok reserved
      exact ⟨row, found, .kept, .inl⟩
  | reconcile applied =>
      obtain ⟨_, _, rfl⟩ := Store.applyCharges_frame applied
      exact ⟨row, found, .kept, .inl⟩
  | @write _ _ written receipt stored sameJob complete moves cached spared legible answered =>
      by_cases same : key = written.key
      · subst same
        obtain rfl : written = row := Option.some.inj (stored.symm.trans found)
        exact ⟨_, Ledger.lookup_writeReceipt_self stored sameJob,
          .written sameJob complete moves cached legible answered, spared⟩
      · exact ⟨row, (Ledger.lookup_writeReceipt_of_ne sameJob same).trans found, .kept, .inl⟩
  | _ => exact ⟨row, found, .kept, .inl⟩

/-- What a submission has checked before a job appears. -/
structure Adds (who : Author) (before : Ledger) (row : JobRow) (after : Ledger) : Prop where
  author : ∃ nowNs, who = .submission nowNs ∧
    (row.receipt.state = .queued → row.job.snapshotNs ≤ nowNs)
  tenant : before.tenant = some row.job.tenant
  session : (before.sessions.lookup row.job.sessionKey).isSome = true
  sameJob : row.receipt.jobId = row.job.id
  complete : row.receipt.Complete
  unanswered : row.receipt.cacheHit = false
  readable : row.receipt.Readable
  initial : row.receipt.state = .queued ∨ row.receipt.state = .rejected
  admitted : row.receipt.state = .queued → before.Admitted row.job
  dependencies : ∀ dependency ∈ row.job.dependencies, DependencyMet before row.job dependency
  added : before.addJob row.job row.receipt = .ok after

/-- A job that appears was submitted to the coordinator. -/
theorem Commit.row_new (commit : Commit who before after) {row : JobRow}
    (absent : before.jobs.lookup key = none) (found : after.jobs.lookup key = some row) :
    Adds who before row after ∧ after.attempts = before.attempts := by
  have unchanged : before.jobs.lookup key ≠ some row := by
    rw [absent]
    simp
  cases commit with
  | addJob tenant session sameJob complete unanswered readable initial admitted past dependencies
      added =>
      obtain ⟨_, _, inserted, rfl⟩ := before.addJob_ok added
      rw [Table.lookup_insert? inserted] at found
      split at found
      · rw [Option.some.injEq] at found
        subst found
        exact ⟨⟨⟨_, rfl, past⟩, tenant, session, sameJob, complete, unanswered, readable, initial,
          admitted, dependencies, added⟩, rfl⟩
      · exact absurd found unchanged
  | reserve _ _ _ _ _ reserved =>
      obtain ⟨_, _, _, _, rfl⟩ := before.reserve_ok reserved
      exact absurd found unchanged
  | reconcile applied =>
      obtain ⟨_, _, rfl⟩ := Store.applyCharges_frame applied
      exact absurd found unchanged
  | @write _ _ written receipt stored sameJob =>
      have differs : key ≠ written.key := by
        rintro rfl
        rw [absent] at stored
        contradiction
      rw [Ledger.lookup_writeReceipt_of_ne sameJob differs] at found
      exact absurd found unchanged
  | _ => exact absurd found unchanged

/-! ## Attempts across a commit -/

/-- How a commit changes a stored attempt. -/
inductive AttemptMove : Author → Attempt → Attempt → Prop
  | kept {who : Author} {attempt : Attempt} : AttemptMove who attempt attempt
  | settled {who : Author} {attempt : Attempt} (actual : Option Ns) (unsettled : attempt.actual = none) :
      AttemptMove who attempt (attempt.settle actual)
  | reheld {clean : Bool} {attempt : Attempt} (unsettled : clean = true → attempt.actual = none) :
      AttemptMove (.recovery clean) attempt (attempt.settle none)
  | abandoned {clean : Bool} {attempt : Attempt} :
      AttemptMove (.recovery clean) attempt attempt.abandon

theorem Ledger.lookup_settleAttempt_self {ledger : Ledger} {attempt : Attempt}
    (actual : Option Ns) (found : ledger.attempts.lookup attempt.key = some attempt) :
    (ledger.settleAttempt attempt.key actual).attempts.lookup attempt.key =
      some (attempt.settle actual) := by
  rw [Ledger.lookup_settleAttempt, if_pos rfl, found, Option.map_some]

theorem Ledger.lookup_settleAttempt_of_ne {ledger : Ledger} {target : Name × Name}
    (actual : Option Ns) (differs : key ≠ target) :
    (ledger.settleAttempt target actual).attempts.lookup key = ledger.attempts.lookup key := by
  rw [Ledger.lookup_settleAttempt, if_neg differs]

theorem Ledger.lookup_settleAttempt_none {ledger : Ledger} {target : Name × Name}
    (actual : Option Ns) (absent : ledger.attempts.lookup key = none) :
    (ledger.settleAttempt target actual).attempts.lookup key = none := by
  rw [Ledger.lookup_settleAttempt]
  split
  · rename_i same
    rw [← same, absent, Option.map_none]
  · exact absent

theorem Ledger.lookup_abandonAttempt_none {ledger : Ledger} {target : Name × Name}
    (absent : ledger.attempts.lookup key = none) :
    (ledger.abandonAttempt target).attempts.lookup key = none := by
  rw [Ledger.lookup_abandonAttempt]
  split
  · rename_i same
    rw [← same, absent, Option.map_none]
  · exact absent

/-- A settlement of one attempt, seen from the attempt under any key. -/
private theorem settle_move {attempt stored : Attempt} (actual : Option Ns)
    (found : before.attempts.lookup key = some attempt)
    (settled : before.attempts.lookup stored.key = some stored)
    (move : AttemptMove who stored (stored.settle actual)) :
    ∃ next, (before.settleAttempt stored.key actual).attempts.lookup key = some next ∧
      AttemptMove who attempt next := by
  by_cases same : key = stored.key
  · subst same
    obtain rfl : stored = attempt := Option.some.inj (settled.symm.trans found)
    exact ⟨_, Ledger.lookup_settleAttempt_self actual settled, move⟩
  · exact ⟨attempt, (Ledger.lookup_settleAttempt_of_ne actual same).trans found, .kept⟩

theorem Commit.attempt_kept (commit : Commit who before after) {attempt : Attempt}
    (found : before.attempts.lookup key = some attempt) :
    ∃ next, after.attempts.lookup key = some next ∧ AttemptMove who attempt next := by
  cases commit with
  | addJob _ _ _ _ _ _ _ _ _ _ added =>
      obtain ⟨_, _, _, rfl⟩ := before.addJob_ok added
      exact ⟨attempt, found, .kept⟩
  | reserve _ _ _ _ _ reserved =>
      obtain ⟨_, _, _, inserted, rfl⟩ := before.reserve_ok reserved
      refine ⟨attempt, ?_, .kept⟩
      refine (Table.lookup_insert? inserted).trans ?_
      rw [if_neg, found]
      rintro rfl
      rw [(Table.insert?_eq_some_iff.mp inserted).1] at found
      contradiction
  | @reconcile released _ _ _ _ _ applied =>
      refine Store.applyCharges_preserves
        (fun ledger => ∃ next, ledger.attempts.lookup key = some next ∧
          AttemptMove (.operator released) attempt next) ?_ applied ⟨attempt, found, .kept⟩
      rintro ledger other actual kind stored unsettled _ ⟨current, currentFound, moved⟩
      obtain ⟨next, nextFound, nextMoved⟩ := settle_move (some actual) currentFound stored
        (.settled _ unsettled : AttemptMove (.operator released) other _)
      refine ⟨next, nextFound, ?_⟩
      cases nextMoved with
      | kept => exact moved
      | settled actual unsettled =>
          cases moved with
          | kept => exact .settled actual unsettled
          | settled earlier open_ =>
              cases earlier with
              | none => exact .settled actual open_
              | some charge => simp [Attempt.settle] at unsettled
  | settle actual stored unsettled => exact settle_move actual found stored (.settled actual unsettled)
  | rehold stored unsettled => exact settle_move none found stored (.reheld unsettled)
  | @abandon _ _ other stored =>
      by_cases same : key = other.key
      · subst same
        obtain rfl : other = attempt := Option.some.inj (stored.symm.trans found)
        refine ⟨_, ?_, .abandoned⟩
        rw [Ledger.lookup_abandonAttempt, if_pos rfl, stored, Option.map_some]
      · refine ⟨attempt, ?_, .kept⟩
        rw [Ledger.lookup_abandonAttempt, if_neg same, found]
  | _ => exact ⟨attempt, found, .kept⟩

/-- What is checked before an attempt appears, and what its commit changes. -/
structure Reserves (who : Author) (before : Ledger) (row : JobRow) (endpoint : Endpoint)
    (after : Ledger) : Prop where
  author : ∃ config entries, who = .coordinator config entries
  found : before.jobs.lookup row.key = some row
  queued : row.receipt.state = .queued
  pool : endpoint.pool ∉ before.quarantined
  waiting : before.Waiting
  ended : before.SettledEnded
  attempts : before.attemptCount < before.caps.maxAttempts
  microusd : before.admissionTotalMicrousd + endpoint.reserveMicrousd.val ≤
    before.caps.maxMicrousd
  frame : ∃ attempts events, before.attempts.insert? (.reservation row.job endpoint) =
    some attempts ∧ after = { before with attempts := attempts, events := events }

theorem Reserves.jobs {row : JobRow} {endpoint : Endpoint}
    (reserves : Reserves who before row endpoint after) : after.jobs = before.jobs := by
  obtain ⟨_, _, _, rfl⟩ := reserves.frame
  rfl

theorem Commit.attempt_new (commit : Commit who before after) {attempt : Attempt}
    (absent : before.attempts.lookup key = none)
    (found : after.attempts.lookup key = some attempt) :
    ∃ row endpoint, row.key = key ∧ attempt = .reservation row.job endpoint ∧
      Reserves who before row endpoint after := by
  have unchanged : before.attempts.lookup key ≠ some attempt := by
    rw [absent]
    simp
  cases commit with
  | addJob _ _ _ _ _ _ _ _ _ _ added =>
      obtain ⟨_, _, _, rfl⟩ := before.addJob_ok added
      exact absurd found unchanged
  | @reserve _ _ _ _ row endpoint _ stored queued open_ waiting ended reserved =>
      obtain ⟨attempts, microusd, _, inserted, rfl⟩ := before.reserve_ok reserved
      have looked := (Table.lookup_insert? inserted).symm.trans found
      split at looked
      · rename_i keyEq
        rw [Option.some.injEq] at looked
        exact ⟨row, endpoint, keyEq, looked.symm, ⟨_, _, rfl⟩, stored, queued, open_, waiting, ended,
          attempts, microusd, _, _, inserted, rfl⟩
      · exact absurd looked unchanged
  | reconcile applied =>
      have stays : after.attempts.lookup key = none :=
        Store.applyCharges_preserves
          (fun ledger => ledger.attempts.lookup key = none)
          (fun _ _ actual _ _ _ _ none_ => Ledger.lookup_settleAttempt_none (some actual) none_)
          applied absent
      rw [stays] at found
      contradiction
  | settle actual _ _ =>
      rw [Ledger.lookup_settleAttempt_none actual absent] at found
      contradiction
  | rehold _ _ =>
      rw [Ledger.lookup_settleAttempt_none none absent] at found
      contradiction
  | abandon _ =>
      rw [Ledger.lookup_abandonAttempt_none absent] at found
      contradiction
  | _ => exact absurd found unchanged

end Frames

end AgminaRuntime
