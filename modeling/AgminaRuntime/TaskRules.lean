import AgminaRuntime.CoordinatorRules

/-!
# The two segments of a task

A task holds its slot and its reservation until one of its segments ends.  The
ending segment settles the attempt, writes a receipt that is not live, and
gives the slot back.
-/

namespace AgminaRuntime

open Durable Durable.Program Keyed

/-- The reason for which the pre-send check would not send a job. -/
def Runtime.preSendReason (ledger : Ledger) (self : Coordinator) (job : Job) :
    Option InvalidReason :=
  (ledger.sessions.lookup job.sessionKey).bind fun session =>
    job.invalidReason session (self.clock.nowNs self.reads) self.clock.id

/-- The pre-send check would put no other state in the place of one that the
receipt has already reached. -/
def Runtime.KeepsState (ledger : Ledger) (self : Coordinator) (job : Job) : Prop :=
  ∀ row ∈ ledger.jobs.lookup job.key, ∀ reason ∈ preSendReason ledger self job,
    row.receipt.state = .running ∨ row.receipt.state = reason.state

instance (ledger : Ledger) (self : Coordinator) (job : Job) :
    Decidable (Runtime.KeepsState ledger self job) :=
  inferInstanceAs (Decidable (∀ row ∈ ledger.jobs.lookup job.key,
    ∀ reason ∈ Runtime.preSendReason ledger self job,
      row.receipt.state = .running ∨ row.receipt.state = reason.state))

/-- The first content of a result came during its call. -/
def Runtime.FirstContentInside (startedNs firstContentNs : Option Ns) (now : Ns) : Prop :=
  match startedNs, firstContentNs with
  | some started, some first => started ≤ first ∧ first ≤ now
  | _, _ => True

instance (startedNs firstContentNs : Option Ns) (now : Ns) :
    Decidable (Runtime.FirstContentInside startedNs firstContentNs now) :=
  match startedNs, firstContentNs with
  | some started, some first => inferInstanceAs (Decidable (started ≤ first ∧ first ≤ now))
  | none, _ => .isTrue trivial
  | some _, none => .isTrue trivial

/-- A result whose first content lies inside the call and whose charge can be
stored reaches the receipt. -/
def Runtime.Acceptable (ledger : Ledger) (self : Coordinator) (job : Job) (result : Prediction) :
    Prop :=
  (∀ row ∈ ledger.jobs.lookup job.key, FirstContentInside row.receipt.startedNs
      result.firstContentNs (self.clock.nowNs self.reads)) ∧
    ∀ cost ∈ result.usage.costMicrousd, cost < 2 ^ 63

instance (ledger : Ledger) (self : Coordinator) (job : Job) (result : Prediction) :
    Decidable (Runtime.Acceptable ledger self job result) :=
  inferInstanceAs (Decidable ((∀ row ∈ ledger.jobs.lookup job.key,
    Runtime.FirstContentInside row.receipt.startedNs result.firstContentNs
      (self.clock.nowNs self.reads)) ∧ ∀ cost ∈ result.usage.costMicrousd, cost < 2 ^ 63))

/-- What the reply puts into the receipt can be read back. -/
def Runtime.LegibleReply (ledger : Ledger) (self : Coordinator) (job : Job) : BackendReply → Prop
  | .raised exception => exception.endsProcess = false → PyStr.Plain (some exception.code)
  | .notPrediction => True
  | .prediction result =>
      Acceptable ledger self job result → PyStr.Plain result.providerRequestId

instance (ledger : Ledger) (self : Coordinator) (job : Job) (reply : BackendReply) :
    Decidable (Runtime.LegibleReply ledger self job reply) :=
  match reply with
  | .raised exception => inferInstanceAs (Decidable (_ = _ → PyStr.Plain (some exception.code)))
  | .notPrediction => inferInstanceAs (Decidable True)
  | .prediction result =>
      inferInstanceAs (Decidable (Runtime.Acceptable ledger self job result →
        PyStr.Plain result.providerRequestId))

variable {lifetime : Lifetime} {self : Coordinator} {ledger : Ledger} {task : Task}
  {orderly legible : Bool}

/-! ## The end of an attempt -/

/-- The attempt of a job is settled, and nothing but the events has changed
besides. -/
structure Settles (before after : Ledger) (job : Job) : Prop where
  sound : after.Sound
  tenant : after.tenant = before.tenant
  sessions : after.sessions = before.sessions
  jobs : after.jobs = before.jobs
  attempt : ∃ attempt, after.attempts.lookup job.key = some attempt ∧
    attempt.disposition ≠ .reserved
  otherAttempts : ∀ key, key ≠ job.key → after.attempts.lookup key = before.attempts.lookup key

theorem Settles.note {middle : Ledger} {job : Job} (settles : Settles ledger middle job)
    (atNs : Ns) (kind : Event) : Settles ledger (middle.note atNs kind) job :=
  { settles with sound := settles.sound.note atNs kind }

theorem Attempt.settle_disposition (actual : Option Ns) (attempt : Attempt) :
    (attempt.settle actual).disposition ≠ .reserved := by
  cases actual <;> simp [Attempt.settle]

/-- A task settles its own reservation. -/
theorem wp_settle_task (running : Running lifetime ledger self) (member : task ∈ self.running)
    {usage : Option Usage} (actual : Option Ns)
    (charge : usage.bind (·.costMicrousd) = actual.map Fin.val)
    {normal : Unit → Ledger → Coordinator → Prop}
    {raised : PyExc → Ledger → Coordinator → Prop}
    (returns : ∀ middle, Settles ledger middle task.job → normal () middle self) :
    wp (Store.settle task.job usage) (Commit (.task orderly legible)) normal raised ledger self := by
  let attempt : Attempt := .reservation task.job task.endpoint
  have reservation : ledger.attempts.lookup attempt.key = some attempt :=
    (running.tasks task member).attempt
  have commit : Commit (.task orderly legible) ledger (ledger.settleAttempt task.job.key actual) :=
    .settle actual reservation rfl
  have settles : Settles ledger (ledger.settleAttempt task.job.key actual) task.job :=
    { sound := commit.sound running.sound
      tenant := rfl
      sessions := rfl
      jobs := rfl
      attempt := ⟨_, Ledger.lookup_settleAttempt_self actual reservation,
        Attempt.settle_disposition _ _⟩
      otherAttempts := fun key differs => Ledger.lookup_settleAttempt_of_ne actual differs }
  rw [wp_settle, charge]
  cases actual with
  | none => exact ⟨commit, returns _ settles⟩
  | some value =>
      simp only [Option.map_some, value.isLt, dif_pos]
      exact ⟨commit, returns _ settles⟩

/-- The job of a task was dispatched, so no write refuses it any more. -/
theorem accepted_of_moves {old new : JobState} (inTask : old.inTask = true)
    (moves : Author.Moves (.task orderly legible) old new) : new ≠ .rejected := by
  rintro rfl
  rcases moves with edge | ⟨_, _, _, _, same | ⟨_, overwritten⟩⟩
  · cases old <;> simp_all [JobState.inTask, JobState.successors]
  · subst same
    contradiction
  · simp at overwritten

/-- The receipt that is written after the settlement is stored. -/
theorem Settles.written {middle : Ledger} {old receipt : Receipt}
    (settles : Settles ledger middle task.job) (running : Running lifetime ledger self)
    (found : ledger.Stored (task.job, old)) (sameJob : receipt.jobId = old.jobId) :
    (middle.writeReceipt task.job.tenant receipt).Stored (task.job, receipt) := by
  let row : JobRow := ⟨task.job, old⟩
  have stored : middle.jobs.lookup row.key = some row := by
    rw [settles.jobs]
    exact found
  have sameRow : receipt.jobId = row.job.id :=
    sameJob.trans (running.sound.rows row.key row found).sameJob
  exact Ledger.lookup_writeReceipt_self stored sameRow

/-- The job of a task was not answered from the cache. -/
theorem Running.task_unspared (running : Running lifetime ledger self) (member : task ∈ self.running)
    {old : Receipt} (found : ledger.Stored (task.job, old)) : old.cacheHit = false := by
  let row : JobRow := ⟨task.job, old⟩
  have attempt := (running.tasks task member).attempt
  have sound := running.sound.rows row.key row found
  cases hit : old.cacheHit with
  | false => rfl
  | true =>
      have spared : row.receipt.spared = true := by
        rw [Receipt.spared, show row.receipt.cacheHit = true from hit, Bool.true_or]
      have absent : ledger.attempts.lookup task.job.key = none := sound.spared spared
      rw [absent] at attempt
      contradiction

/-- The receipt that ends a task, after its attempt is settled. -/
theorem Settles.finish {middle : Ledger} {old receipt : Receipt}
    (settles : Settles ledger middle task.job) (running : Running lifetime ledger self)
    (member : task ∈ self.running) (found : ledger.Stored (task.job, old))
    (sameJob : receipt.jobId = old.jobId) (complete : receipt.Complete)
    (moves : Author.Moves (.task orderly legible) old.state receipt.state)
    (ended : receipt.state.isLive = false) (hit : receipt.cacheHit = old.cacheHit)
    (readable : legible = true → receipt.Readable) :
    Commit (.task orderly legible) middle (middle.writeReceipt task.job.tenant receipt) ∧
      Running lifetime (middle.writeReceipt task.job.tenant receipt)
        (Runtime.releaseSlot task self) := by
  let row : JobRow := ⟨task.job, old⟩
  have rowFound : ledger.jobs.lookup row.key = some row := found
  have inTask : old.state.inTask = true := by
    obtain ⟨receipt, receiptFound, inTask, -⟩ := (running.tasks task member).row
    have same : JobRow.mk task.job receipt = row :=
      Option.some.inj (receiptFound.symm.trans rowFound)
    rwa [show old = receipt from congrArg JobRow.receipt same.symm]
  have stored : middle.jobs.lookup row.key = some row := by
    rw [settles.jobs]
    exact rowFound
  have sameRow : receipt.jobId = row.job.id :=
    sameJob.trans (running.sound.rows _ _ rowFound).sameJob
  have commit : Commit (.task orderly legible) middle (middle.writeReceipt row.job.tenant receipt) :=
    .write stored sameRow complete moves (fun queued _ => by
      rw [show old.state = .queued from queued] at inTask
      contradiction)
      (fun spared => .inl (Receipt.spared_of_moved hit (accepted_of_moves inTask moves) spared))
      readable fun served => by
        rw [hit, running.task_unspared member found] at served
        contradiction
  have ends : Ends ledger (middle.writeReceipt row.job.tenant receipt) task.job := by
    refine ⟨settles.sessions, ?_, ?_, settles.attempt, settles.otherAttempts⟩
    · intro other otherFound
      have written := Ledger.lookup_writeReceipt_self stored sameRow
      rw [show row.key = task.job.key from rfl, otherFound, Option.some.injEq] at written
      rw [written]
      exact ended
    · intro key differs
      rw [Ledger.lookup_writeReceipt_of_ne sameRow differs, settles.jobs]
  refine ⟨commit, ?_, ?_⟩
  · exact running.toLive.endTask member ends (commit.sound settles.sound)
      (settles.tenant.trans running.tenant)
  · refine running.current.subsides ⟨settles.sessions, ?_⟩
    intro key other otherFound live
    by_cases same : key = task.job.key
    · rw [same] at otherFound
      rw [ends.row other otherFound] at live
      contradiction
    · rw [ends.otherRows key same] at otherFound
      exact ⟨other, otherFound, live, rfl⟩

/-! ## The pre-send check -/

/-- What the row of an unfinished task is read as. -/
theorem wp_job_task (running : Running lifetime ledger self) (member : task ∈ self.running)
    {middle : Ledger} (jobs : middle.jobs = ledger.jobs)
    {guarantee : Ledger → Ledger → Prop} {normal : Job × Receipt → Ledger → Coordinator → Prop}
    {raised : PyExc → Ledger → Coordinator → Prop} {memory : Coordinator}
    (returns : ∀ old, ledger.Stored (task.job, old) → old.state.inTask = true →
      old.Readable → old.Complete → old.startedNs.isSome = true → normal (task.job, old) middle memory) :
    wp (Store.job task.job.tenant task.job.id) guarantee normal raised middle memory := by
  obtain ⟨old, found, inTask, readable, started⟩ := (running.tasks task member).row
  have stored : middle.jobs.lookup (task.job.tenant, task.job.id) = some ⟨task.job, old⟩ := by
    rw [jobs]
    exact found
  rw [wp_job stored readable]
  exact returns old found inTask readable (running.sound.rows _ _ found).complete started

theorem JobState.inTask_cases {state : JobState} (inTask : state.inTask = true) :
    state = .running ∨ state ∈ [JobState.expired, .stale, .cancelled] := by
  cases state <;> simp_all [JobState.inTask]

theorem JobState.isDead_of_ended {state : JobState}
    (ended : state ∈ [JobState.expired, .stale, .cancelled]) : state.isDead = true := by
  cases state <;> simp_all [JobState.isDead]

/-- A job that has a task has not been consumed. -/
theorem Receipt.Complete.unclaimed_inTask {receipt : Receipt} (complete : receipt.Complete)
    (inTask : receipt.state.inTask = true) : receipt.consumedBy.isSome = false := by
  refine complete.unclaimed ?_
  intro consumed
  rw [consumed] at inTask
  contradiction

/-- What the pre-send check leaves: a task that is sent, or one that has ended. -/
def Checked (lifetime : Lifetime) (before : Ledger) (memory : Coordinator) (task : Task)
    (sent : Bool) (after : Ledger) (next : Coordinator) : Prop :=
  if sent then
    Running lifetime after next ∧ after = before ∧ next.running = memory.running ∧
      Runtime.preSendReason before memory task.job = none
  else Running lifetime after (Runtime.releaseSlot task next)

theorem wp_preSend (running : Running lifetime ledger self) (member : task ∈ self.running)
    (keeps : orderly = true → Runtime.KeepsState ledger self task.job)
    {raised : PyExc → Ledger → Coordinator → Prop} :
    wp (Runtime.preSend task) (Commit (.task orderly legible)) (Checked lifetime ledger self task)
      raised ledger self := by
  obtain ⟨stored, storedFound, -⟩ := (running.tasks task member).row
  obtain ⟨session, sessionFound⟩ :=
    Option.isSome_iff_exists.mp (running.sound.rows _ _ storedFound).session
  simp only [Runtime.preSend, wp_bind, wp_readVolatile, wp_session sessionFound, wp_nowNs]
  split
  · rename_i valid
    refine (wp_pure _).mpr ⟨running.read, rfl, rfl, ?_⟩
    rw [Runtime.preSendReason]
    exact (congrArg (Option.bind · _) sessionFound).trans valid
  · rename_i reason invalid
    have found : Runtime.preSendReason ledger self task.job = some reason := by
      rw [Runtime.preSendReason]
      exact (congrArg (Option.bind · _) sessionFound).trans invalid
    simp only [wp_bind]
    refine wp_settle_task running.read member (some 0) rfl ?_
    intro middle settles
    simp only [wp_bind]
    refine wp_job_task running member settles.jobs ?_
    intro old oldFound inTask readable complete started
    have moves : Author.Moves (.task orderly legible) old.state reason.state := by
      rcases JobState.inTask_cases inTask with isRunning | ended
      · rw [isRunning]
        exact .inl (reason.state_edge rfl)
      · refine .inr ⟨orderly, legible, rfl, ended, ?_⟩
        cases orderly with
        | false => exact .inr ⟨rfl, reason.state_ends⟩
        | true =>
            rcases keeps rfl _ oldFound reason found with isRunning | same
            · rw [show old.state = .running from isRunning] at ended
              simp at ended
            · exact .inl same.symm
    let unsent : Receipt :=
      { old with state := reason.state, reason := some (PyStr.ofString reason.text) }
    have unsentComplete : unsent.Complete :=
      Receipt.complete_of_dead reason.state_isDead (complete.unclaimed_inTask inTask)
    obtain ⟨commit, finished⟩ := settles.finish running.read member oldFound
      (show unsent.jobId = old.jobId from rfl) unsentComplete moves
      (JobState.isLive_of_isDead reason.state_isDead) rfl
      fun _ => readable.moved reason.state reason.text
    simp only [Runtime.moveTo, Runtime.setState, wp_bind, wp_receipt, wp_nowNs, wp_event, wp_pure]
    exact ⟨commit, .note _ _, .note _ _, (finished.read.note _ _).read.note _ _⟩

theorem wp_runStart (running : Running lifetime ledger self) (member : task ∈ self.running)
    (keeps : orderly = true → Runtime.KeepsState ledger self task.job)
    {raised : PyExc → Ledger → Coordinator → Prop} :
    wp (Runtime.runStart task) (Commit (.task orderly legible))
      (fun sent after memory =>
        if sent then Running (lifetime.call task.job) after memory ∧ after = ledger ∧
          Runtime.preSendReason ledger self task.job = none
        else Running lifetime after memory)
      raised ledger self := by
  simp only [Runtime.runStart, wp_bind, wp_tryFinally, wp_tryExcept]
  refine wp_post (wp_preSend running member keeps) ?_ (fun _ _ _ failed => failed)
  intro sent after memory checked
  cases sent with
  | false =>
      simpa [Checked] using checked
  | true =>
      obtain ⟨kept, rfl, same, valid⟩ := checked
      have keptMember : task ∈ memory.running := by
        rw [same]
        exact member
      have called : Running (lifetime.call task.job) after _ :=
        ⟨kept.toLive.await keptMember, kept.current⟩
      simpa [valid] using called

/-! ## Failed calls -/

theorem Running.quarantinePool (running : Running lifetime ledger self) (pool : Name)
    (reason : String) : Running lifetime (ledger.quarantinePool pool reason) self :=
  ⟨running.toLive.of_tables (.quarantine pool reason : Commit (.operator none) _ _) rfl rfl rfl,
    running.current⟩

theorem wp_settleFailed (running : Running lifetime ledger self) (member : task ∈ self.running)
    (exception : PyExc) {raised : PyExc → Ledger → Coordinator → Prop} :
    wp (Runtime.settleFailed task.job exception) (Commit (.task orderly legible))
      (fun _ after memory => Settles ledger after task.job ∧ Running lifetime ledger memory ∧
        memory.running = self.running)
      raised ledger self := by
  simp only [Runtime.settleFailed, wp_bind]
  refine wp_settle_task running member (if exception.notSent then some 0 else none) ?_ ?_
  · split <;> rfl
  intro middle settles
  rw [wp_ite]
  split
  · simp only [wp_bind, wp_nowNs, wp_event]
    exact ⟨.note _ _, settles.note _ _, running.read, trivial⟩
  · exact (wp_pure _).mpr ⟨settles, running, rfl⟩

theorem Runtime.failedState_moves {old : Receipt} (inTask : old.state.inTask = true)
    (exception : PyExc) :
    Author.Moves (.task orderly legible) old.state (failedState old exception) := by
  rcases JobState.inTask_cases inTask with isRunning | ended
  · refine .inl ?_
    simp only [failedState, isRunning, ne_eq, not_true_eq_false, if_false]
    split <;> simp [JobState.successors]
  · refine .inr ⟨orderly, legible, rfl, ended, .inl ?_⟩
    rw [failedState, if_pos]
    intro isRunning
    rw [isRunning] at ended
    simp at ended

theorem Runtime.failedState_isDead {old : Receipt} (inTask : old.state.inTask = true)
    (exception : PyExc) : (failedState old exception).isDead = true := by
  unfold failedState
  split
  · rename_i notRunning
    rcases JobState.inTask_cases inTask with isRunning | ended
    · exact absurd isRunning notRunning
    · exact JobState.isDead_of_ended ended
  · split <;> rfl

theorem wp_handleFailure (running : Running lifetime ledger self) (member : task ∈ self.running)
    (exception : PyExc)
    (plain : legible = true → exception.endsProcess = false →
      PyStr.Plain (some exception.code)) :
    wp (Runtime.handleFailure task exception) (Commit (.task orderly legible))
      (fun _ after memory => Running lifetime after (Runtime.releaseSlot task memory) ∧
        (exception.terminationKnown = false → task.endpoint.pool ∈ after.quarantined))
      (fun raised _ _ => raised.endsProcess = true) ledger self := by
  simp only [Runtime.handleFailure]
  rw [wp_ite]
  split
  · rename_i ends
    exact (wp_raise _).mpr ends
  · rename_i survives
    simp only [wp_bind]
    refine wp_post (wp_settleFailed running member exception) ?_ (fun _ _ _ failed => failed)
    rintro _ middle memory ⟨settles, kept, same⟩
    have keptMember : task ∈ memory.running := by
      rw [same]
      exact member
    simp only [wp_bind]
    refine wp_job_task kept keptMember settles.jobs ?_
    intro old oldFound inTask readable complete started
    have dead := Runtime.failedState_isDead inTask exception
    let failed : Receipt :=
      { old with
        completedNs := some (memory.clock.nowNs memory.reads)
        state := Runtime.failedState old exception
        reason := some exception.code }
    have failedComplete : failed.Complete :=
      Receipt.complete_of_dead dead (complete.unclaimed_inTask inTask)
    have failedReadable : legible = true → failed.Readable := by
      intro legibly
      obtain ⟨-, providerRequestId, bounded⟩ := Receipt.readable_iff.mp readable
      exact Receipt.readable_iff.mpr
        ⟨plain legibly (by simpa using survives), providerRequestId, bounded⟩
    obtain ⟨commit, finished⟩ := settles.finish kept.read keptMember oldFound
      (show failed.jobId = old.jobId from rfl) failedComplete
      (Runtime.failedState_moves inTask exception) (JobState.isLive_of_isDead dead) rfl
      failedReadable
    simp only [Runtime.moveTo, Runtime.setState, wp_bind, wp_receipt, wp_nowNs, wp_event, wp_pure]
    refine ⟨commit, .note _ _, ?_⟩
    rw [wp_ite]
    split
    · rename_i known
      exact (wp_pure _).mpr ⟨finished.read.note _ _, by simp [known]⟩
    · simp only [wp_bind, wp_quarantine, wp_nowNs, wp_event]
      refine ⟨.quarantine _ _, .note _ _, ?_, ?_⟩
      · exact ((finished.read.note _ _).quarantinePool _ _).read.note _ _
      · intro _
        exact (Ledger.mem_quarantined_quarantinePool _).mpr (.inl rfl)

/-! ## Replies -/

theorem Runtime.completedState_moves {old : Receipt} (inTask : old.state.inTask = true)
    (invalid : Option InvalidReason) :
    Author.Moves (.task orderly legible) old.state (completedState old invalid).1 := by
  rcases JobState.inTask_cases inTask with isRunning | ended
  · refine .inl ?_
    simp only [completedState, isRunning, ne_eq, not_true_eq_false, if_false]
    cases invalid with
    | none => simp [JobState.successors]
    | some reason => exact reason.state_edge rfl
  · refine .inr ⟨orderly, legible, rfl, ended, .inl ?_⟩
    unfold completedState
    rw [if_pos]
    intro isRunning
    rw [isRunning] at ended
    simp at ended

/-- The receipt of a call that returned is a result or a dead receipt. -/
theorem Runtime.completedReceipt_complete {old : Receipt} (complete : old.Complete)
    (inTask : old.state.inTask = true) (invalid : Option InvalidReason) (now : Ns)
    (result : Prediction) :
    let updated := completedReceipt old (completedState old invalid).1
      (completedState old invalid).2 now result
    updated.Complete ∧ updated.state.isLive = false := by
  have unclaimed := complete.unclaimed_inTask inTask
  intro updated
  by_cases succeeded : updated.state = .succeeded
  · refine ⟨?_, by rw [succeeded]; rfl⟩
    refine
      { readable := fun live => by rw [succeeded] at live; contradiction
        predicted := fun _ => rfl
        claimed := ?_
        returnable := fun consumed => by rw [succeeded] at consumed; contradiction
        unanswered := fun live => by rw [succeeded] at live; contradiction
        started := fun running => by rw [succeeded] at running; contradiction }
    rw [succeeded, show updated.consumedBy = old.consumedBy from rfl, unclaimed]
    simp
  · have dead : updated.state.isDead = true := by
      have state : updated.state = (completedState old invalid).1 := rfl
      rw [state] at succeeded ⊢
      unfold completedState at succeeded ⊢
      split at succeeded
      · rename_i notRunning
        rw [if_pos notRunning]
        rcases JobState.inTask_cases inTask with isRunning | ended
        · exact absurd isRunning notRunning
        · exact JobState.isDead_of_ended ended
      · rename_i isRunning
        rw [if_neg isRunning]
        cases invalid with
        | none => exact absurd rfl succeeded
        | some reason => exact reason.state_isDead
    exact ⟨Receipt.complete_of_dead dead unclaimed, JobState.isLive_of_isDead dead⟩

/-- The receipt of a call that returned can be read back with the text of the
result. -/
theorem Runtime.completedReceipt_readable {old : Receipt} (readable : old.Readable)
    (invalid : Option InvalidReason) (now : Ns) {result : Prediction}
    (bounded : ∀ cost ∈ result.usage.costMicrousd, cost < 2 ^ 63)
    (plain : PyStr.Plain result.providerRequestId) :
    (completedReceipt old (completedState old invalid).1 (completedState old invalid).2 now
      result).Readable := by
  refine Receipt.readable_iff.mpr ⟨?_, plain, ?_⟩
  · show PyStr.Plain (completedState old invalid).2
    unfold completedState
    split
    · exact (Receipt.readable_iff.mp readable).1
    · cases invalid with
      | none => exact PyStr.plain_none
      | some reason => exact PyStr.plain_ofString reason.text
  · rintro ⟨usage, same, cost, charged, large⟩
    obtain rfl : result.usage = usage := Option.some.inj same
    exact absurd (bounded cost charged) (not_lt.mpr large)

theorem wp_checkFirstContent {guarantee : Ledger → Ledger → Prop} {old : Receipt}
    (started : old.startedNs.isSome = true) (result : Prediction) (now : Ns)
    {normal : Unit → Ledger → Coordinator → Prop} {raised : PyExc → Ledger → Coordinator → Prop}
    (returns : Runtime.FirstContentInside old.startedNs result.firstContentNs now →
      normal () ledger self)
    (fails : ∀ exception : PyExc, PyStr.Plain (some exception.code) →
      raised exception ledger self) :
    wp (Runtime.checkFirstContent old result now) guarantee normal raised ledger self := by
  obtain ⟨start, startEq⟩ := Option.isSome_iff_exists.mp started
  unfold Runtime.checkFirstContent
  split
  · rename_i absent
    exact (wp_pure _).mpr (returns (by simp [Runtime.FirstContentInside, absent]))
  · rename_i first present
    rw [startEq]
    simp only
    rw [wp_ite]
    split
    · rename_i inside
      refine (wp_pure _).mpr (returns ?_)
      simpa [Runtime.FirstContentInside, startEq, present] using inside
    · exact (wp_raise _).mpr (fails _ (PyStr.plain_ofString _))

/-- The charge of a returned call, which may be too large to be stored. -/
theorem wp_settle_result (running : Running lifetime ledger self) (member : task ∈ self.running)
    (result : Prediction) {normal : Unit → Ledger → Coordinator → Prop}
    {raised : PyExc → Ledger → Coordinator → Prop}
    (returns : (∀ cost ∈ result.usage.costMicrousd, cost < 2 ^ 63) →
      ∀ middle, Settles ledger middle task.job → normal () middle self)
    (overflows : raised .overflowError ledger self) :
    wp (Store.settle task.job (some result.usage)) (Commit (.task orderly legible)) normal raised
      ledger self := by
  cases costEq : result.usage.costMicrousd with
  | none => exact wp_settle_task running member none (by simp [costEq]) (returns (by simp [costEq]))
  | some cost =>
      by_cases bounded : cost < 2 ^ 63
      · exact wp_settle_task running member (some ⟨cost, bounded⟩) (by simp [costEq])
          (returns (by simpa [costEq] using bounded))
      · rw [wp_settle]
        simp only [Option.bind_some, costEq, dif_neg bounded]
        exact overflows

/-- The entry that a successful result leaves in the cache. -/
def Caches (task : Task) (state : JobState) (result : Prediction) (now : Ns)
    (entry : CacheEntry) : Prop :=
  state = .succeeded ∧ task.cacheKey = some entry.key ∧ entry.payload = result.payloadJson ∧
    entry.computedNs = now

instance (task : Task) (state : JobState) (result : Prediction) (now : Ns)
    (entry : CacheEntry) : Decidable (Caches task state result now entry) :=
  inferInstanceAs (Decidable (_ ∧ _ ∧ _ ∧ _))

theorem wp_cachePut {guarantee : Ledger → Ledger → Prop} (state : JobState)
    (result : Prediction) (now : Ns) {normal : Unit → Ledger → Coordinator → Prop}
    {raised : PyExc → Ledger → Coordinator → Prop}
    (returns : ∀ cache : HistoricalCache,
      (∀ entry ∈ cache.data, entry ∈ self.cache.data ∨ Caches task state result now entry) →
        cache.ttlNs = self.cache.ttlNs → normal () ledger { self with cache := cache }) :
    wp (Runtime.cachePut task state result now) guarantee normal raised ledger self := by
  unfold Runtime.cachePut
  rw [wp_ite]
  split
  · rename_i succeeded
    refine (wp_modifyVolatile _).mpr (returns _ ?_ HistoricalCache.put_ttlNs)
    intro entry member
    rcases HistoricalCache.put_data member with old | ⟨named, payload, computed⟩
    · exact .inl old
    · exact .inr ⟨succeeded, named, payload, computed⟩
  · exact (wp_pure _).mpr (returns self.cache (fun _ member => .inl member) rfl)

/-- A cached result comes from a call: its task was RUNNING and its receipt is
now the success that the entry repeats. -/
structure Computes (before after : Ledger) (task : Task) (result : Prediction)
    (entry : CacheEntry) : Prop where
  key : task.cacheKey = some entry.key
  payload : entry.payload = result.payloadJson
  sent : ∃ old, before.Stored (task.job, old) ∧ old.state = .running
  succeeded : ∃ receipt, after.Stored (task.job, receipt) ∧ receipt.state = .succeeded ∧
    receipt.cacheHit = false ∧ receipt.predictionJson = some entry.payload ∧
      receipt.completedNs = some entry.computedNs

theorem Runtime.completedState_succeeded {old : Receipt} {invalid : Option InvalidReason}
    (inTask : old.state.inTask = true)
    (succeeded : (completedState old invalid).1 = .succeeded) : old.state = .running := by
  unfold completedState at succeeded
  split at succeeded
  · rw [show old.state = .succeeded from succeeded] at inTask
    contradiction
  · rename_i isRunning
    exact not_not.mp isRunning

theorem wp_deliver (running : Running lifetime ledger self) (member : task ∈ self.running)
    (result : Prediction)
    (plain : legible = true → Runtime.Acceptable ledger self task.job result →
      PyStr.Plain result.providerRequestId) :
    wp (Runtime.deliver task result) (Commit (.task orderly legible))
      (fun _ after memory => ∃ computed,
        (∀ entry ∈ computed, Computes ledger after task result entry) ∧
          Running (lifetime.store computed) after (Runtime.releaseSlot task memory))
      (fun exception after memory => after = ledger ∧ Running lifetime after memory ∧
        memory.running = self.running ∧ PyStr.Plain (some exception.code))
      ledger self := by
  simp only [Runtime.deliver, wp_bind, wp_nowNs]
  refine wp_job_task running member rfl ?_
  intro old oldFound inTask readable complete started
  obtain ⟨start, startEq⟩ := Option.isSome_iff_exists.mp started
  obtain ⟨session, sessionFound⟩ :=
    Option.isSome_iff_exists.mp (running.sound.rows _ _ oldFound).session
  simp only [wp_bind]
  refine wp_checkFirstContent started result _ ?_
    (fun _ plain => ⟨rfl, running.read, rfl, plain⟩)
  intro inside
  simp only [wp_bind]
  refine wp_settle_result running.read member result ?_ ?_
  swap
  · exact ⟨rfl, running.read, rfl, PyStr.plain_ofString _⟩
  intro bounded middle settles
  have accepts : Runtime.Acceptable ledger self task.job result := by
    refine ⟨?_, bounded⟩
    intro row rowFound
    obtain rfl : row = ⟨task.job, old⟩ := Option.some.inj (rowFound.symm.trans oldFound)
    exact inside
  have sessionStored : middle.sessions.lookup (task.job.tenant, task.job.sessionId) =
      some session := by
    rw [settles.sessions]
    exact sessionFound
  simp only [wp_bind, wp_session sessionStored, wp_readVolatile, wp_receipt]
  let now := self.clock.nowNs self.reads
  let invalid := task.job.invalidReason session now self.clock.id
  let updated := Runtime.completedReceipt old (Runtime.completedState old invalid).1
    (Runtime.completedState old invalid).2 now result
  obtain ⟨updatedComplete, ended⟩ :=
    Runtime.completedReceipt_complete complete inTask invalid now result
  obtain ⟨commit, finished⟩ := settles.finish running.read member oldFound (by rfl) updatedComplete
    (Runtime.completedState_moves inTask _) ended rfl
    fun legibly => Runtime.completedReceipt_readable readable _ _ bounded (plain legibly accepts)
  refine ⟨commit, ?_⟩
  refine wp_cachePut _ _ _ ?_
  intro cache cached ttl
  rw [startEq]
  simp only [wp_event]
  let computed := cache.data.filter fun entry =>
    Caches task (Runtime.completedState old invalid).1 result now entry
  refine ⟨.note _ _, computed, ?_, ?_⟩
  · intro entry entryMember
    obtain ⟨-, caches⟩ := List.mem_filter.mp entryMember
    obtain ⟨succeeded, key, payload, computedNs⟩ := of_decide_eq_true caches
    refine ⟨key, payload, ⟨old, oldFound, Runtime.completedState_succeeded inTask succeeded⟩,
      _, settles.written running oldFound rfl, succeeded, ?_, ?_, ?_⟩
    · exact (running.task_unspared member oldFound : old.cacheHit = false)
    · rw [payload]
      rfl
    · rw [computedNs]
      rfl
  · have within : ∀ entry ∈ cache.data, entry ∈ (lifetime.store computed).entries := by
      intro entry entryMember
      rcases cached entry entryMember with old | computes
      · exact List.mem_append_left _ (running.cached entry old)
      · exact List.mem_append_right _
          (List.mem_filter.mpr ⟨entryMember, decide_eq_true computes⟩)
    have stored : Live (lifetime.store computed) (middle.writeReceipt task.job.tenant updated)
        (Runtime.releaseSlot task { self with reads := self.reads + 1, cache := cache }) :=
      (finished.store computed).of_memory rfl rfl le_rfl rfl rfl rfl within ttl
    exact Running.note ⟨stored, finished.current⟩ _ _

/-- The reply of a backend ends its task, an unconfirmed one quarantines the
pool, and only a result enters the cache. -/
theorem wp_runFinish (running : Running lifetime ledger self) (member : task ∈ self.running)
    (reply : BackendReply)
    (legibly : legible = true → Runtime.LegibleReply ledger self task.job reply) :
    wp (Runtime.runFinish task reply) (Commit (.task orderly legible))
      (fun _ after memory => (∃ computed,
        (∀ entry ∈ computed, ∃ result, reply = .prediction result ∧
          Computes ledger after task result entry) ∧
            Running (lifetime.store computed) after memory) ∧
        (reply.confirmed = false → task.endpoint.pool ∈ after.quarantined))
      (fun raised _ _ => raised.endsProcess = true) ledger self := by
  simp only [Runtime.runFinish, wp_tryFinally, wp_tryExcept, if_true]
  cases reply with
  | raised exception =>
      refine (wp_raise _).mpr (wp_post (wp_handleFailure running member exception legibly) ?_
        (fun _ _ _ failed => failed))
      rintro _ after memory ⟨ended, quarantined⟩
      exact ⟨⟨[], by simp, ended.store []⟩, quarantined⟩
  | notPrediction =>
      refine (wp_raise _).mpr (wp_post (wp_handleFailure running member _
        fun _ _ => PyStr.plain_ofString _) ?_ (fun _ _ _ failed => failed))
      rintro _ after memory ⟨ended, -⟩
      exact ⟨⟨[], by simp, ended.store []⟩, by simp [BackendReply.confirmed]⟩
  | prediction result =>
      refine wp_post (wp_deliver running member result legibly) ?_ ?_
      · rintro _ after memory ⟨computed, computes, ended⟩
        exact ⟨⟨computed, fun entry member => ⟨result, rfl, computes entry member⟩, ended⟩,
          by simp [BackendReply.confirmed]⟩
      · rintro exception after memory ⟨rfl, kept, same, plain⟩
        have keptMember : task ∈ memory.running := by
          rw [same]
          exact member
        refine wp_post (wp_handleFailure kept keptMember exception fun _ _ => plain) ?_
          (fun _ _ _ failed => failed)
        rintro _ after memory ⟨ended, -⟩
        exact ⟨⟨[], by simp, ended.store []⟩, by simp [BackendReply.confirmed]⟩

end AgminaRuntime
