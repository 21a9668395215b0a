import AgminaRuntime.SessionRules

/-!
# Submission

`Admissible` spells out, over the state before the call, when a new job is
queued.  A submission that queues its job has checked exactly that, and moves
exactly the jobs that it may replace; every other submission leaves the
earlier jobs alone.
-/

namespace AgminaRuntime

open Durable Durable.Program Keyed

/-! ## The scan of the queue -/

section Scan

variable (job : Job) (live queued : List (Job × Receipt))

theorem scanGroup_reason :
    (Runtime.scanGroup job live queued).1 = none ↔
      ∀ entry ∈ queued, Runtime.sameGroup entry.1 job = true →
        entry.1.snapshotNs < job.snapshotNs := by
  induction queued with
  | nil => simp [Runtime.scanGroup]
  | cons entry rest ih =>
      obtain ⟨previous, receipt⟩ := entry
      rw [List.forall_mem_cons, ← ih]
      by_cases grouped : Runtime.sameGroup previous job = true
      · by_cases newer : job.snapshotNs ≤ previous.snapshotNs
        · simp [Runtime.scanGroup, grouped, newer, Fin.not_lt.mpr newer]
        · have older : previous.snapshotNs < job.snapshotNs := Fin.not_le.mp newer
          by_cases parent : Runtime.hasChild previous live = true <;>
            simp [Runtime.scanGroup, grouped, older, newer, parent]
      · simp [Runtime.scanGroup, grouped]

/-- The scan replaces the older members of the group without live dependents. -/
theorem scanGroup_superseded :
    (Runtime.scanGroup job live queued).2 = queued.filter fun entry =>
      Runtime.sameGroup entry.1 job && decide (entry.1.snapshotNs < job.snapshotNs) &&
        ! Runtime.hasChild entry.1 live := by
  induction queued with
  | nil => rfl
  | cons entry rest ih =>
      obtain ⟨previous, receipt⟩ := entry
      by_cases grouped : Runtime.sameGroup previous job = true
      · by_cases newer : job.snapshotNs ≤ previous.snapshotNs
        · simp [Runtime.scanGroup, grouped, newer, Fin.not_lt.mpr newer, ih]
        · have older : previous.snapshotNs < job.snapshotNs := Fin.not_le.mp newer
          by_cases parent : Runtime.hasChild previous live = true <;>
            simp [Runtime.scanGroup, grouped, older, newer, parent, ih]
      · simp [Runtime.scanGroup, grouped, ih]

end Scan

/-! ## When a job is admitted -/

/-- A queued older member of the job's group on which no live job depends. -/
def Supersedable (ledger : Ledger) (job : Job) (row : JobRow) : Prop :=
  (job.replaceKey.isSome = true ∧ row.receipt.state = .queued ∧
      Runtime.sameGroup row.job job = true ∧ row.job.snapshotNs < job.snapshotNs) ∧
    ∀ other ∈ ledger.jobs.rows, other.receipt.state.isLive = true →
      row.job.id ∉ other.job.dependencies

instance (ledger : Ledger) (job : Job) (row : JobRow) :
    Decidable (Supersedable ledger job row) :=
  inferInstanceAs (Decidable ((_ ∧ _) ∧ _))

/-- The queued jobs and those of them that the job may replace. -/
def queuedRows (ledger : Ledger) : List JobRow :=
  ledger.jobs.rows.filter fun row => row.receipt.state = .queued

/-- A new job passes every check of `submit` in the state before the call. -/
structure Admissible (ledger : Ledger) (memory : Coordinator) (job : Job) : Prop where
  registered : memory.config.modelContract job.model ≠ none
  capacity : ∃ stored, Store.readRows (Store.selectJobs ledger job.tenant []) = .ok stored ∧
    stored.length < memory.config.maxJobs
  valid : ∃ session, ledger.sessions.lookup job.sessionKey = some session ∧
    job.invalidReason session (memory.clock.nowNs memory.reads) memory.clock.id = none
  dependencies : ∀ dependency ∈ job.dependencies, DependencyMet ledger job dependency
  newest : job.replaceKey.isSome = true → ∀ row ∈ queuedRows ledger,
    Runtime.sameGroup row.job job = true → row.job.snapshotNs < job.snapshotNs
  queue : ((queuedRows ledger).length : Int) -
    (queuedRows ledger).countP (fun row => decide (Supersedable ledger job row)) <
      memory.config.maxQueue
  endpoints : Runtime.allowedEndpoints memory.config job ≠ []
  network : memory.allowNetwork = true ∨ ∃ endpoint ∈ Runtime.allowedEndpoints memory.config job,
    endpoint.kind = .mock ∨ endpoint.id ∈ memory.backends
  evidence : ∃ observations, Ledger.admitObservations job.tenant job.sessionId job.observations
    ledger.observations = .ok observations

theorem scanGroup_plain (job : Job) (live queued : List (Job × Receipt)) :
    PyStr.Plain (Runtime.scanGroup job live queued).1 := by
  induction queued with
  | nil => exact PyStr.plain_none
  | cons entry rest ih =>
      obtain ⟨previous, receipt⟩ := entry
      simp only [Runtime.scanGroup]
      split
      · split
        · exact PyStr.plain_ofString _
        · split
          · exact ih
          · exact ih
      · exact ih

theorem orReason_plain {reason : Option PyStr} {condition : Prop} [Decidable condition]
    (text : String) (plain : PyStr.Plain reason) :
    PyStr.Plain (Runtime.orReason reason condition (PyStr.ofString text)) := by
  unfold Runtime.orReason
  cases reason with
  | some _ => exact plain
  | none =>
      by_cases holds : condition
      · rw [if_pos holds]
        exact PyStr.plain_ofString text
      · rw [if_neg holds]
        exact PyStr.plain_none

theorem admissionReason_plain {self : Coordinator} {job : Job} {reason : Option PyStr}
    {queued superseded : Nat} (plain : PyStr.Plain reason) :
    PyStr.Plain (Runtime.admissionReason self job reason queued superseded) := by
  unfold Runtime.admissionReason
  apply orReason_plain
  apply orReason_plain
  apply orReason_plain
  exact plain

theorem Receipt.readable_initial {job : Job} {state : JobState} {reason : Option PyStr}
    {submittedNs : Ns} (plain : PyStr.Plain reason) :
    (Receipt.initial job state reason submittedNs).Readable :=
  Receipt.readable_iff.mpr ⟨plain, PyStr.plain_none, by simp [Receipt.initial]⟩

theorem orReason_eq_none {reason : Option PyStr} {condition : Prop} [Decidable condition]
    {text : PyStr} :
    Runtime.orReason reason condition text = none ↔ reason = none ∧ ¬ condition := by
  unfold Runtime.orReason
  cases reason <;> by_cases holds : condition <;> simp [holds]

theorem admissionReason_eq_none {self : Coordinator} {job : Job} {reason : Option PyStr}
    {queued superseded : Nat} :
    Runtime.admissionReason self job reason queued superseded = none ↔
      reason = none ∧ (queued : Int) - superseded < self.config.maxQueue ∧
        Runtime.allowedEndpoints self.config job ≠ [] ∧
          (self.allowNetwork = true ∨
            ∃ endpoint ∈ Runtime.allowedEndpoints self.config job,
              endpoint.kind = .mock ∨ endpoint.id ∈ self.backends) := by
  simp only [Runtime.admissionReason, orReason_eq_none, not_and, not_le]
  constructor
  · rintro ⟨⟨⟨none_, queue⟩, endpoints⟩, network⟩
    refine ⟨none_, queue, endpoints, ?_⟩
    by_cases allowed : self.allowNetwork = true
    · exact .inl allowed
    · right
      by_contra absent
      refine network endpoints allowed ?_
      intro endpoint member
      constructor
      · exact fun mock => absent ⟨endpoint, member, .inl mock⟩
      · exact fun local_ => absent ⟨endpoint, member, .inr local_⟩
  · rintro ⟨none_, queue, endpoints, network⟩
    refine ⟨⟨⟨none_, queue⟩, endpoints⟩, ?_⟩
    intro _ offline remote
    rcases network with allowed | ⟨endpoint, member, mock | local_⟩
    · exact offline allowed
    · exact (remote endpoint member).1 mock
    · exact (remote endpoint member).2 local_

/-! ## The parts of `submit` -/

section Parts

variable {lifetime : Lifetime} {self : Coordinator} {ledger : Ledger} {job : Job}
  {guarantee : Ledger → Ledger → Prop} {raised : PyExc → Ledger → Coordinator → Prop}

theorem readRows_error {rows : List JobRow} {exception : PyExc}
    (failed : Store.readRows rows = .error exception) :
    exception = .validationError "Receipt" := by
  induction rows with
  | nil => simp [Store.readRows] at failed
  | cons row rows ih =>
      unfold Store.readRows at failed
      split at failed
      · rename_i rowFailed
        rw [Except.error.injEq] at failed
        subst failed
        unfold Store.readRow at rowFailed
        split at rowFailed
        · exact (Except.error.inj rowFailed).symm
        · contradiction
      · split at failed
        · rename_i restFailed
          rw [Except.error.injEq] at failed
          subst failed
          exact ih restFailed
        · contradiction

theorem wp_checkDependency {dependency : Name} {normal : Unit → Ledger → Coordinator → Prop}
    (met : DependencyMet ledger job dependency → normal () ledger self)
    (unmet : ∀ exception, exception ≠ .integrityError → exception.endsProcess = false →
      ¬ DependencyMet ledger job dependency → raised exception ledger self) :
    wp (Runtime.checkDependency job dependency) guarantee normal raised ledger self := by
  simp only [Runtime.checkDependency, wp_bind, Store.job, wp_readDurable]
  cases found : ledger.jobs.lookup (job.tenant, dependency) with
  | none =>
      refine (wp_raise _).mpr (unmet _ (by simp) rfl ?_)
      rintro ⟨row, rowFound, -⟩
      rw [found] at rowFound
      contradiction
  | some row =>
      simp only [wp_ofExcept, Store.readRow]
      cases read : row.receipt.reparse with
      | none =>
          refine unmet _ (by simp) rfl ?_
          rintro ⟨other, otherFound, readable, -⟩
          rw [found, Option.some.injEq] at otherFound
          subst otherFound
          exact readable read
      | some receipt =>
          simp only [wp_ite, wp_raise, wp_pure]
          split
          · rename_i crosses
            refine unmet _ (by simp) rfl ?_
            rintro ⟨other, otherFound, -, generation, -⟩
            rw [found, Option.some.injEq] at otherFound
            subst otherFound
            exact crosses generation
          · rename_i generation
            rw [not_not] at generation
            split
            · rename_i omitted
              refine unmet _ (by simp) rfl ?_
              rintro ⟨other, otherFound, -, -, lineage⟩
              rw [found, Option.some.injEq] at otherFound
              subst otherFound
              exact omitted lineage
            · rename_i lineage
              rw [not_not] at lineage
              exact met ⟨row, found, by simp [read], generation, lineage⟩

theorem wp_checkDependencies {normal : Unit → Ledger → Coordinator → Prop}
    (met : (∀ dependency ∈ job.dependencies, DependencyMet ledger job dependency) →
      normal () ledger self)
    (unmet : ∀ exception, exception ≠ .integrityError → exception.endsProcess = false →
      (¬ ∀ dependency ∈ job.dependencies, DependencyMet ledger job dependency) →
        raised exception ledger self) :
    wp (forEach job.dependencies (Runtime.checkDependency job)) guarantee normal raised
      ledger self := by
  refine wp_post (wp_forEach
    (fun rest after memory => after = ledger ∧ memory = self ∧ rest ⊆ job.dependencies ∧
      ∀ dependency ∈ job.dependencies, dependency ∈ rest ∨ DependencyMet ledger job dependency)
    ?_ ⟨rfl, rfl, fun _ member => member, fun _ member => .inl member⟩) ?_
    (fun _ _ _ failed => failed)
  · rintro dependency rest after memory ⟨rfl, rfl, within, checked⟩
    apply wp_checkDependency
    · intro holds
      refine ⟨rfl, rfl, fun _ member => within (List.mem_cons_of_mem _ member), ?_⟩
      intro other member
      rcases checked other member with later | done
      · rcases List.mem_cons.mp later with rfl | later
        · exact .inr holds
        · exact .inl later
      · exact .inr done
    · intro exception ordinary survives fails
      exact unmet exception ordinary survives fun all =>
        fails (all dependency (within List.mem_cons_self))
  · rintro _ after memory ⟨rfl, rfl, -, checked⟩
    refine met fun dependency member => ?_
    rcases checked dependency member with impossible | done
    · simp at impossible
    · exact done

theorem selectJobs_queued (live : Live lifetime ledger self) {tenant : Name}
    (same : tenant = self.config.tenant) :
    Store.selectJobs ledger tenant [.queued] = queuedRows ledger := by
  apply List.filter_congr
  intro row member
  have rowTenant := live.row_tenant (Table.lookup_of_mem member)
  simp [rowTenant, same]

/-- Some live job depends on a job, as the scan sees it. -/
theorem hasChild_iff {tenant : Name} {entries : List (Job × Receipt)} {parent : Job}
    (reads : Reads ledger tenant [.queued, .running] entries) :
    Runtime.hasChild parent entries = true ↔
      ∃ row ∈ ledger.jobs.rows, row.receipt.state.isLive = true ∧
        parent.id ∈ row.job.dependencies := by
  simp only [Runtime.hasChild, List.any_eq_true, decide_eq_true_eq]
  constructor
  · rintro ⟨entry, member, dependent⟩
    refine ⟨⟨entry.1, entry.2⟩, Table.mem_of_lookup (reads.stored entry member), ?_, dependent⟩
    have state := reads.selected entry member
    simp only [List.mem_cons, List.not_mem_nil, or_false] at state
    rcases state with stateEq | stateEq <;> simp [stateEq, JobState.isLive]
  · rintro ⟨row, member, live, dependent⟩
    refine ⟨(row.job, row.receipt),
      reads.complete row.key row (Table.lookup_of_mem member) ?_, dependent⟩
    cases stateEq : row.receipt.state <;> simp_all [JobState.isLive]

/-- What the scan of the queue returns for a valid job. -/
structure Scan (ledger : Ledger) (job : Job) (newer : Option PyStr)
    (superseded : List (Job × Receipt)) : Prop where
  plain : PyStr.Plain newer
  newer : newer = none ↔ (job.replaceKey.isSome = true → ∀ row ∈ queuedRows ledger,
    Runtime.sameGroup row.job job = true → row.job.snapshotNs < job.snapshotNs)
  superseded : superseded =
    ((queuedRows ledger).filter fun row => decide (Supersedable ledger job row)).map
      fun row => (row.job, row.receipt)

theorem wp_scanQueue (live : Live lifetime ledger self) (tenant : job.tenant = self.config.tenant)
    {invalid : Option InvalidReason}
    {normal : Option PyStr × List (Job × Receipt) → Ledger → Coordinator → Prop}
    (valid : invalid = none → ∀ newer superseded, Scan ledger job newer superseded →
      normal (newer, superseded) ledger self)
    (stale : invalid ≠ none → normal (none, []) ledger self) :
    wp (Runtime.scanQueue job invalid) guarantee normal raised ledger self := by
  simp only [Runtime.scanQueue]
  rw [wp_ite]
  split
  · rename_i scans
    simp only [wp_bind]
    have bound : ledger.tenant = some job.tenant := by rw [tenant]; exact live.tenant
    refine wp_jobs live.sound bound (by simp) (by simp [JobState.isLive]) ?_
    intro queued queuedReads
    simp only [wp_bind]
    refine wp_jobs live.sound bound (by simp) (by simp [JobState.isLive]) ?_
    intro running runningReads
    refine (wp_pure _).mpr (valid scans.2 _ _ ⟨scanGroup_plain _ _ _, ?_, ?_⟩)
    · rw [scanGroup_reason, queuedReads.rows, selectJobs_queued live tenant]
      simp [scans.1]
    · rw [scanGroup_superseded, queuedReads.rows, selectJobs_queued live tenant, List.filter_map]
      congr 1
      apply List.filter_congr
      intro row member
      have queued : row.receipt.state = .queued := by
        simpa [queuedRows] using (List.mem_filter.mp member).2
      have childless : Runtime.hasChild row.job running = false ↔
          ∀ other ∈ ledger.jobs.rows, other.receipt.state.isLive = true →
            row.job.id ∉ other.job.dependencies := by
        rw [← Bool.not_eq_true, hasChild_iff runningReads]
        push Not
        rfl
      rw [Bool.eq_iff_iff]
      simp only [Function.comp_apply, Bool.and_eq_true, decide_eq_true_eq,
        Bool.not_eq_true', childless, Supersedable, scans.1, queued, true_and]
  · rename_i skips
    refine (wp_pure _).mpr ?_
    by_cases invalidEq : invalid = none
    · have noKey : job.replaceKey.isSome = false := by
        simpa [invalidEq] using skips
      refine valid invalidEq none [] ⟨PyStr.plain_none, by simp [noKey], ?_⟩
      simp [Supersedable, noKey]
    · exact stale invalidEq

end Parts

/-! ## The whole submission -/

/-- What the submission of a new job has done to the journal. -/
structure Admission (before : Ledger) (memory : Coordinator) (job : Job) (receipt : Receipt)
    (after : Ledger) : Prop where
  absent : before.jobs.lookup job.key = none
  stored : after.Stored (job, receipt)
  decision : (receipt.state = .queued ∧ Admissible before memory job) ∨
    (receipt.state = .rejected ∧ ¬ Admissible before memory job)
  replaced : receipt.state = .queued → ∀ row ∈ before.jobs.rows, Supersedable before job row →
    ∃ updated, after.Stored (row.job, updated) ∧ updated.state = .superseded
  others : ∀ key, key ≠ job.key →
    (∀ row, before.jobs.lookup key = some row → receipt.state = .queued →
      ¬ Supersedable before job row) →
      after.jobs.lookup key = before.jobs.lookup key

section Submit

variable {lifetime : Lifetime} {self : Coordinator} {ledger : Ledger} {job : Job}

/-- The initial receipt carries all that its state needs. -/
theorem Receipt.complete_initial {state : JobState} {reason : Option PyStr} {submittedNs : Ns}
    (initial : state = .rejected ∨ state = .queued ∧ reason = none) :
    (Receipt.initial job state reason submittedNs).Complete := by
  refine
    { readable := fun live => ?_
      predicted := fun result => ?_
      claimed := ?_
      returnable := fun consumed => ?_
      unanswered := fun _ => rfl
      started := fun running => ?_ }
  all_goals
    rcases initial with rfl | ⟨rfl, rfl⟩
    all_goals simp_all [Receipt.initial, JobState.isLive, Receipt.Readable, Receipt.reparse,
      PyStr.reparseOption]

/-- A stored job keeps what holds between two steps, if it is of the current
generation when it is queued. -/
theorem Running.addJob (running : Running lifetime ledger self) {receipt : Receipt}
    {after : Ledger} {who : Author} (commit : Commit who ledger after)
    (initial : receipt.state = .queued ∨ receipt.state = .rejected)
    (current : receipt.state = .queued → ∃ session,
      ledger.sessions.lookup job.sessionKey = some session ∧ session.Current job self.clock.id)
    (added : ledger.addJob job receipt = .ok after) : Running lifetime after self := by
  refine ⟨running.toLive.addJob commit initial added, ?_⟩
  obtain ⟨observations, jobs, inserted, rfl⟩ := ledger.addJob_ok added
  intro key row found live
  rw [Table.lookup_insert? inserted] at found
  split at found
  · rw [Option.some.injEq] at found
    subst found
    rcases initial with queued | rejected
    · exact current queued
    · rw [show (JobRow.mk job receipt).receipt.state = _ from rejected] at live
      contradiction
  · exact running.current key row found live

/-- What the end of `submit` leaves. -/
structure Enqueued (before : Ledger) (job : Job) (reason : Option PyStr)
    (superseded : List (Job × Receipt)) (receipt : Receipt) (after : Ledger) : Prop where
  stored : after.Stored (job, receipt)
  evidence : ∃ observations, Ledger.admitObservations job.tenant job.sessionId job.observations
    before.observations = .ok observations
  state : receipt.state = if reason.isSome then .rejected else .queued
  moved : reason = none → ∀ entry ∈ superseded,
    ∃ updated, after.Stored (entry.1, updated) ∧ updated.state = .superseded
  others : ∀ key, key ≠ job.key → (reason = none → ∀ entry ∈ superseded, entry.1.key ≠ key) →
    after.jobs.lookup key = before.jobs.lookup key

theorem wp_enqueue (running : Running lifetime ledger self)
    (tenant : job.tenant = self.config.tenant) (absent : ledger.jobs.lookup job.key = none)
    {session : Session} (sessionFound : ledger.sessions.lookup job.sessionKey = some session)
    {now : Ns} {reason : Option PyStr} {superseded : List (Job × Receipt)}
    (plain : PyStr.Plain reason)
    (valid : reason = none → session.Current job self.clock.id ∧ session.Admits job ∧
      job.snapshotNs ≤ now)
    (dependencies : ∀ dependency ∈ job.dependencies, DependencyMet ledger job dependency)
    (stored : reason = none → ∀ entry ∈ superseded, ledger.Stored entry)
    (queued : reason = none → ∀ entry ∈ superseded, entry.2.state = .queued)
    (distinct : reason = none → (superseded.map fun entry => entry.1.key).Nodup)
    {raised : PyExc → Ledger → Coordinator → Prop}
    (reused : ∀ text, Ledger.admitObservations job.tenant job.sessionId job.observations
      ledger.observations = .error (.valueError text) → raised (.valueError text) ledger self) :
    wp (Runtime.enqueue job now reason superseded) (Commit (.submission now))
      (fun receipt after memory => Running lifetime after memory ∧
        Enqueued ledger job reason superseded receipt after)
      raised ledger self := by
  have bound : ledger.tenant = some job.tenant := by rw [tenant]; exact running.tenant
  simp only [Runtime.enqueue, wp_bind, Store.addJob, wp_transaction]
  cases added : ledger.addJob job
      (Receipt.initial job (if reason.isSome then .rejected else .queued) reason now) with
  | error exception =>
      have failed := (ledger.addJob_error_iff absent).mp added
      obtain ⟨text, rfl⟩ := Ledger.admitObservations_error failed
      exact reused text failed
  | ok middle =>
      have evidence : ∃ observations, Ledger.admitObservations job.tenant job.sessionId
          job.observations ledger.observations = .ok observations := by
        cases admitted : Ledger.admitObservations job.tenant job.sessionId job.observations
            ledger.observations with
        | ok observations => exact ⟨observations, rfl⟩
        | error exception =>
            rw [(ledger.addJob_error_iff absent).mpr admitted] at added
            contradiction
      have ownRow : middle.Stored
          (job, .initial job (if reason.isSome then .rejected else .queued) reason now) :=
        (ledger.lookup_addJob added).trans (if_pos rfl)
      have otherRows : ∀ key, key ≠ job.key →
          middle.jobs.lookup key = ledger.jobs.lookup key := fun key differs =>
        (ledger.lookup_addJob added).trans (if_neg (Ne.symm differs))
      cases reason with
      | some text =>
          have commit : Commit (.submission now) ledger middle :=
            .addJob bound (by rw [sessionFound]; rfl) rfl (Receipt.complete_initial (.inl rfl)) rfl
              (Receipt.readable_initial plain) (.inr rfl) (by simp [Receipt.initial]) (by simp [Receipt.initial]) dependencies added
          have kept : Running lifetime middle self :=
            running.addJob commit (.inr rfl) (by simp [Receipt.initial]) added
          refine ⟨commit, ?_⟩
          rw [if_neg (by simp)]
          simp only [wp_bind, wp_event]
          exact ⟨.note _ _, (wp_pure _).mpr ⟨kept.note _ _, ownRow, evidence, rfl, by simp,
            fun key differs _ => otherRows key differs⟩⟩
      | none =>
          obtain ⟨current, admits, past⟩ := valid rfl
          have commit : Commit (.submission now) ledger middle :=
            .addJob bound (by rw [sessionFound]; rfl) rfl
              (Receipt.complete_initial (.inr ⟨rfl, rfl⟩)) rfl (Receipt.readable_initial plain)
              (.inl rfl)
              (fun _ => ⟨session, sessionFound, admits⟩) (fun _ => past) dependencies added
          have kept : Running lifetime middle self :=
            running.addJob commit (.inl rfl) (fun _ => ⟨session, sessionFound, current⟩) added
          have older : ∀ entry ∈ superseded, entry.1.key ≠ job.key := by
            intro entry member same
            have found := stored rfl entry member
            rw [Ledger.Stored, same, absent] at found
            contradiction
          refine ⟨commit, ?_⟩
          rw [if_pos rfl]
          simp only [wp_bind]
          refine wp_post (wp_moveAll _ (by simp [JobState.successors]) rfl kept
            (fun entry member => (otherRows _ (older entry member)).trans (stored rfl entry member))
            (queued rfl) (distinct rfl)) ?_ (fun _ _ _ failed => failed)
          rintro _ after memory ⟨moving, allMoved⟩
          simp only [wp_bind, wp_event]
          refine ⟨.note _ _, (wp_pure _).mpr ⟨moving.note _ _, ?_, evidence, rfl,
            fun _ => allMoved.moved, ?_⟩⟩
          · exact (allMoved.others _ older).trans ownRow
          · intro key differs outside
            exact (allMoved.others key (outside rfl)).trans (otherRows key differs)

/-- A submission of a new job was refused before anything was stored. -/
structure NotAdmitted (lifetime : Lifetime) (before : Ledger) (memory : Coordinator) (job : Job)
    (exception : PyExc) (after : Ledger) (next : Coordinator) : Prop where
  refused : Refused lifetime exception after next
  unchanged : after = before
  inadmissible : ¬ Admissible before memory job

/-- The end of an admission behind a scan of the queue. -/
theorem wp_enqueue_scanned (running : Running lifetime ledger self)
    (tenant : job.tenant = self.config.tenant) (absent : ledger.jobs.lookup job.key = none)
    {session : Session} (sessionFound : ledger.sessions.lookup job.sessionKey = some session)
    {now : Ns} {reason : Option PyStr} {superseded : List (Job × Receipt)}
    (plain : PyStr.Plain reason)
    (dependencies : ∀ dependency ∈ job.dependencies, DependencyMet ledger job dependency)
    (admitted : reason = none → (session.Current job self.clock.id ∧ session.Admits job ∧
      job.snapshotNs ≤ now) ∧ superseded = ((queuedRows ledger).filter fun row =>
        decide (Supersedable ledger job row)).map fun row => (row.job, row.receipt))
    {raised : PyExc → Ledger → Coordinator → Prop}
    (reused : ∀ text, Ledger.admitObservations job.tenant job.sessionId job.observations
      ledger.observations = .error (.valueError text) → raised (.valueError text) ledger self) :
    wp (Runtime.enqueue job now reason superseded) (Commit (.submission now))
      (fun receipt after memory => Running lifetime after memory ∧
        Enqueued ledger job reason superseded receipt after)
      raised ledger self := by
  have listed : reason = none → ∀ entry ∈ superseded,
      ledger.Stored entry ∧ entry.2.state = .queued := by
    intro none_ entry member
    rw [(admitted none_).2] at member
    obtain ⟨row, rowMember, rfl⟩ := List.mem_map.mp member
    obtain ⟨stored, queued⟩ := List.mem_filter.mp (List.mem_filter.mp rowMember).1
    exact ⟨Table.lookup_of_mem stored, by simpa using queued⟩
  apply wp_enqueue running tenant absent sessionFound plain (fun none_ => (admitted none_).1)
    dependencies
  · exact fun none_ entry member => (listed none_ entry member).1
  · exact fun none_ entry member => (listed none_ entry member).2
  · intro none_
    rw [(admitted none_).2, List.map_map]
    exact ledger.jobs.distinct.sublist ((List.filter_sublist.trans List.filter_sublist).map _)
  · exact reused

/-- The end of an admission: the scan has decided. -/
theorem wp_enqueue_decided (running : Running lifetime ledger self)
    (tenant : job.tenant = self.config.tenant) (absent : ledger.jobs.lookup job.key = none)
    {session : Session} (sessionFound : ledger.sessions.lookup job.sessionKey = some session)
    {now : Ns} {reason : Option PyStr} {superseded : List (Job × Receipt)}
    {memory : Coordinator} (plain : PyStr.Plain reason)
    (dependencies : ∀ dependency ∈ job.dependencies, DependencyMet ledger job dependency)
    (admitted : reason = none → (session.Current job self.clock.id ∧ session.Admits job ∧
      job.snapshotNs ≤ now) ∧ superseded = ((queuedRows ledger).filter fun row =>
        decide (Supersedable ledger job row)).map fun row => (row.job, row.receipt))
    (admissible : (∃ observations, Ledger.admitObservations job.tenant job.sessionId
        job.observations ledger.observations = .ok observations) →
      (reason = none ↔ Admissible ledger memory job)) :
    wp (Runtime.enqueue job now reason superseded) (Commit (.submission now))
      (fun receipt after next => Running lifetime after next ∧
        Admission ledger memory job receipt after)
      (NotAdmitted lifetime ledger memory job) ledger self := by
  refine wp_post (wp_enqueue_scanned running tenant absent sessionFound plain dependencies
    admitted ?_) ?_ (fun _ _ _ failed => failed)
  · intro text failed
    refine ⟨⟨running, by simp, rfl⟩, rfl, fun admissible => ?_⟩
    obtain ⟨observations, admitted⟩ := admissible.evidence
    rw [failed] at admitted
    contradiction
  · rintro receipt after next ⟨kept, enqueued⟩
    have decision := admissible enqueued.evidence
    refine ⟨kept, ⟨absent, enqueued.stored, ?_, ?_, ?_⟩⟩
    · rw [enqueued.state]
      cases reason with
      | none => exact .inl ⟨rfl, decision.mp rfl⟩
      | some text => exact .inr ⟨rfl, fun holds => by simpa using decision.mpr holds⟩
    · intro queued row member supersedable
      have none_ : reason = none := by
        cases reason with
        | none => rfl
        | some text => simp [enqueued.state] at queued
      refine enqueued.moved none_ (row.job, row.receipt) ?_
      rw [(admitted none_).2]
      refine List.mem_map.mpr ⟨row, List.mem_filter.mpr ⟨List.mem_filter.mpr ⟨member, ?_⟩, ?_⟩, rfl⟩
      · simpa using supersedable.1.2.1
      · simpa using supersedable
    · intro key differs outside
      refine enqueued.others key differs fun none_ entry member same => ?_
      rw [(admitted none_).2] at member
      obtain ⟨row, rowMember, rfl⟩ := List.mem_map.mp member
      obtain ⟨rowQueued, supersedable⟩ := List.mem_filter.mp rowMember
      refine outside row ?_ (by simp [enqueued.state, none_]) (by simpa using supersedable)
      rw [← same]
      exact Table.lookup_of_mem (List.mem_filter.mp rowQueued).1

theorem wp_submitNew (running : Running lifetime ledger self)
    (tenant : job.tenant = self.config.tenant) (absent : ledger.jobs.lookup job.key = none) :
    wp (Runtime.submitNew job) (Commit (.submission (self.clock.nowNs self.reads)))
      (fun receipt after memory => Running lifetime after memory ∧
        Admission ledger self job receipt after)
      (NotAdmitted lifetime ledger self job) ledger self := by
  have bound : ledger.tenant = some job.tenant := by rw [tenant]; exact running.tenant
  simp only [Runtime.submitNew, wp_bind, wp_readVolatile]
  rw [wp_ite]
  split
  · rename_i unregistered
    exact (wp_raise _).mpr ⟨⟨running, by simp, rfl⟩, rfl,
      fun admissible => admissible.registered unregistered⟩
  rename_i registered
  rw [wp_bind, wp_jobs_iff]
  cases storedRead : Store.readRows (Store.selectJobs ledger job.tenant []) with
  | error exception =>
      obtain rfl := readRows_error storedRead
      refine ⟨⟨running, by simp, rfl⟩, rfl, fun admissible => ?_⟩
      obtain ⟨rows, read, -⟩ := admissible.capacity
      rw [storedRead] at read
      contradiction
  | ok stored =>
      simp only [wp_ite]
      split
      · rename_i full
        refine (wp_raise _).mpr ⟨⟨running, by simp, rfl⟩, rfl, fun admissible => ?_⟩
        obtain ⟨rows, read, bounded⟩ := admissible.capacity
        rw [storedRead, Except.ok.injEq] at read
        subst read
        omega
      rename_i capacity
      simp only [wp_bind, wp_session_iff]
      split
      · rename_i missing
        refine ⟨⟨running, by simp, rfl⟩, rfl, fun admissible => ?_⟩
        obtain ⟨session, found, -⟩ := admissible.valid
        rw [show ledger.sessions.lookup job.sessionKey = none from missing] at found
        contradiction
      rename_i session sessionFound
      simp only [wp_bind, wp_nowNs]
      apply wp_checkDependencies
      swap
      · intro exception ordinary survives unmet
        exact ⟨⟨running.read, ordinary, survives⟩, rfl,
          fun admissible => unmet admissible.dependencies⟩
      intro met
      rw [wp_bind]
      refine wp_scanQueue running.toLive.read tenant ?_ ?_
      · intro valid newer superseded scan
        simp only [wp_bind]
        refine wp_jobs running.sound bound (by simp) (by simp [JobState.isLive]) ?_
        intro queued reads
        have queuedLength : queued.length = (queuedRows ledger).length := by
          rw [reads.rows, selectJobs_queued running.toLive tenant, List.length_map]
        have supersededLength : superseded.length =
            (queuedRows ledger).countP fun row => decide (Supersedable ledger job row) := by
          rw [scan.superseded, List.length_map, List.countP_eq_length_filter]
        have plain : PyStr.Plain (Runtime.admissionReason self job
            ((job.invalidReason session (self.clock.nowNs self.reads) self.clock.id).map
              (fun reason => PyStr.ofString reason.text) <|> newer) queued.length
            superseded.length) := by
          rw [valid]
          exact admissionReason_plain scan.plain
        refine wp_enqueue_decided running.read tenant absent sessionFound plain met ?_ ?_
        · intro _
          exact ⟨⟨Session.current_of_valid valid, Session.admits_of_valid valid,
            (Job.invalidReason_eq_none_iff.mp valid).2.2.1⟩, scan.superseded⟩
        · intro evidence
          rw [admissionReason_eq_none, valid, queuedLength, supersededLength]
          simp only [Option.map_none, Option.orElse_eq_orElse, Option.orElse_none]
          constructor
          · rintro ⟨newest, queue, endpoints, network⟩
            exact
              { registered := registered
                capacity := ⟨stored, storedRead, by omega⟩
                valid := ⟨session, sessionFound, valid⟩
                dependencies := met
                newest := scan.newer.mp newest
                queue := queue
                endpoints := endpoints
                network := network
                evidence := evidence }
          · intro admissible
            exact ⟨scan.newer.mpr admissible.newest, admissible.queue, admissible.endpoints,
              admissible.network⟩
      · intro invalid
        obtain ⟨reason, reasonEq⟩ := Option.ne_none_iff_exists'.mp invalid
        simp only [wp_bind]
        refine wp_jobs running.sound bound (by simp) (by simp [JobState.isLive]) ?_
        intro queued _
        have rejected : Runtime.admissionReason self job
            ((job.invalidReason session (self.clock.nowNs self.reads) self.clock.id).map
              (fun reason => PyStr.ofString reason.text) <|> none) queued.length
            ([] : List (Job × Receipt)).length ≠ none := by
          rw [Ne, admissionReason_eq_none, reasonEq]
          simp
        have plain : PyStr.Plain (Runtime.admissionReason self job
            ((job.invalidReason session (self.clock.nowNs self.reads) self.clock.id).map
              (fun reason => PyStr.ofString reason.text) <|> none) queued.length
            ([] : List (Job × Receipt)).length) := by
          rw [reasonEq]
          exact admissionReason_plain (PyStr.plain_ofString reason.text)
        refine wp_enqueue_decided running.read tenant absent sessionFound plain met
          (fun none_ => absurd none_ rejected) ?_
        intro _
        refine iff_of_false rejected fun admissible => ?_
        obtain ⟨other, otherFound, valid⟩ := admissible.valid
        rw [show ledger.sessions.lookup job.sessionKey = some session from sessionFound,
          Option.some.injEq] at otherFound
        subst otherFound
        exact invalid valid

/-- A submission of the job stores and queues it. -/
def Queueable (ledger : Ledger) (memory : Coordinator) (job : Job) : Prop :=
  memory.closed = false ∧ job.tenant = memory.config.tenant ∧
    ledger.jobs.lookup job.key = none ∧ Admissible ledger memory job

/-- What the submission of a job leaves of the journal. -/
def Submitted (before : Ledger) (memory : Coordinator) (job : Job) (after : Ledger) : Prop :=
  (memory.closed = false ∧ job.tenant = memory.config.tenant ∧
      ∃ receipt, Admission before memory job receipt after) ∨
    after = before ∧ ¬ Queueable before memory job

theorem wp_submit_job (running : Running lifetime ledger self) (job : Job) :
    wp (Runtime.submit job.toJobFields) (Commit (.submission (self.clock.nowNs self.reads)))
      (fun _ after next => Running lifetime after next ∧ Submitted ledger self job after)
      (fun exception after next => Refused lifetime exception after next ∧
        after = ledger ∧ ¬ Queueable ledger self job) ledger self := by
  simp only [Runtime.submit, wp_bind, wp_readVolatile, job.validate_toJobFields]
  rw [wp_ite]
  split
  · rename_i refused
    refine (wp_raise _).mpr ⟨⟨running, by simp, rfl⟩, rfl, ?_⟩
    rintro ⟨open_, tenant, -⟩
    rcases refused with closed | foreign
    · rw [open_] at closed
      contradiction
    · exact foreign tenant
  · rename_i open_
    simp only [not_or, not_not] at open_
    simp only [wp_bind, wp_readDurable]
    split
    · rename_i absent
      refine wp_post (wp_submitNew running open_.2 absent) ?_ ?_
      · intro receipt _ _ admitted
        exact ⟨admitted.1, .inl ⟨by simpa using open_.1, open_.2, receipt, admitted.2⟩⟩
      · exact fun _ _ _ failed => ⟨failed.refused, failed.unchanged,
          fun queueable => failed.inadmissible queueable.2.2.2⟩
    · rename_i row found
      have stored : ¬ Queueable ledger self job := by
        rintro ⟨-, -, absent, -⟩
        rw [found] at absent
        contradiction
      simp only [wp_bind, wp_ofExcept, Store.readRow]
      cases row.receipt.reparse with
      | none => exact ⟨⟨running, by simp, rfl⟩, trivial, stored⟩
      | some receipt =>
          simp only [wp_ite, wp_raise, wp_pure]
          split
          · exact ⟨⟨running, by simp, rfl⟩, trivial, stored⟩
          · exact ⟨running, .inr ⟨rfl, stored⟩⟩

/-- The submission of any job keeps what holds between two steps. -/
theorem wp_submit (running : Running lifetime ledger self) (fields : JobFields) :
    wp (Runtime.submit fields) (Commit (.submission (self.clock.nowNs self.reads)))
      (fun _ => Running lifetime) (Refused lifetime) ledger self := by
  cases validEq : fields.validate with
  | error text =>
      simp only [Runtime.submit, wp_bind, wp_readVolatile, validEq, wp_raise]
      exact ⟨running, by simp, rfl⟩
  | ok job =>
      rw [JobFields.validate_ok validEq]
      exact wp_post (wp_submit_job running job) (fun _ _ _ kept => kept.1)
        (fun _ _ _ failed => failed.1)

end Submit

end AgminaRuntime
