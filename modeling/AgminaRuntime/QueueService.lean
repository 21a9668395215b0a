import AgminaRuntime.CampaignInvariant
import AgminaRuntime.TickProgress

/-!
# Queued jobs can be served

A coordinator queues a job only while it is open, has the model contract of the
job and has an endpoint that the job allows.  It is closed by `close` alone,
which empties the queue, and its configuration never changes, so every job that
is still queued can be served.
-/

namespace AgminaRuntime

open Durable Durable.Program Keyed

/-! ## Nothing but `close` closes a coordinator -/

/-- What the construction has fixed stays, and no coordinator is closed. -/
def Steady (first second : Ledger × Coordinator) : Prop :=
  second.2.fixed = first.2.fixed

namespace Runtime

theorem steady : Cumulative Steady where
  refl := fun _ => rfl
  trans := fun early late => Eq.trans late early

theorem nowNs_steady : Within Steady nowNs :=
  nowNs_rests.mono fun _ _ rests => rests.fixed

theorem session_steady (tenant sessionId : Name) :
    Within Steady (Store.session tenant sessionId : RuntimeProgram Session) :=
  (session_rests tenant sessionId).mono fun _ _ rests => rests.fixed

theorem job_steady (tenant jobId : Name) :
    Within Steady (Store.job tenant jobId : RuntimeProgram (Job × Receipt)) :=
  (job_rests tenant jobId).mono fun _ _ rests => rests.fixed

theorem jobs_steady (tenant : Name) (states : List JobState) :
    Within Steady (Store.jobs tenant states : RuntimeProgram (List (Job × Receipt))) :=
  (jobs_rests tenant states).mono fun _ _ rests => rests.fixed

theorem moveTo_steady (job : Job) (receipt : Receipt) (state : JobState) (reason : PyStr) :
    Within Steady (moveTo job receipt state reason) :=
  (moveTo_rests job receipt state reason).mono fun _ _ rests => rests.fixed

theorem expire_steady : Within Steady expire :=
  expire_rests.mono fun _ _ rests => rests.fixed

/-- A transaction does not touch the memory. -/
theorem transaction_steady (body : Ledger → Except PyExc Ledger) :
    Within Steady (transaction body : RuntimeProgram Unit) :=
  within_transaction steady fun _ _ _ _ => rfl

theorem noted_steady (kind : Event) :
    Within Steady (do
      let noted ← nowNs
      Store.event noted kind) :=
  within_bind steady nowNs_steady fun _ => transaction_steady _

theorem openSession_steady (sessionId taskRevision : String) :
    Within Steady (openSession sessionId taskRevision) := by
  apply within_bind steady (within_readVolatile steady)
  intro self
  apply within_bind steady nowNs_steady
  intro now
  apply within_bind steady (within_readDurable steady)
  intro ledger
  dsimp only
  split
  · exact within_raise steady _
  · split
    · refine within_bind steady (transaction_steady _) fun _ => ?_
      exact within_bind steady (transaction_steady _) fun _ => within_pure steady _
    · exact within_raise steady _

theorem advanceSession_steady (sid : Name) (expectedEpoch : Int) (taskRevision : String)
    (close : Bool) : Within Steady (advanceSession sid expectedEpoch taskRevision close) := by
  apply within_bind steady (within_readVolatile steady)
  intro self
  apply within_bind steady (session_steady _ _)
  intro old
  split
  · exact within_raise steady _
  · apply within_bind steady nowNs_steady
    intro now
    dsimp only
    split
    · refine within_bind steady (transaction_steady _) fun _ => ?_
      apply within_bind steady nowNs_steady
      intro noted
      refine within_bind steady (transaction_steady _) fun _ => ?_
      exact within_bind steady expire_steady fun _ => within_pure steady _
    · exact within_raise steady _

theorem heartbeat_steady (sid : Name) (expectedEpoch : Int) (bufferUntilNs : Option Int) :
    Within Steady (heartbeat sid expectedEpoch bufferUntilNs) := by
  apply within_bind steady (within_readVolatile steady)
  intro self
  apply within_bind steady (session_steady _ _)
  intro old
  apply within_bind steady nowNs_steady
  intro now
  split
  · exact within_raise steady _
  · split
    · exact within_raise steady _
    · split
      · exact within_raise steady _
      · refine within_bind steady (transaction_steady _) fun _ => ?_
        exact within_bind steady (transaction_steady _) fun _ => within_pure steady _

theorem checkDependency_steady (job : Job) (dependency : Name) :
    Within Steady (checkDependency job dependency) := by
  apply within_bind steady (job_steady _ _)
  rintro ⟨parent, receipt⟩
  dsimp only
  split
  · exact within_raise steady _
  · split
    · exact within_raise steady _
    · exact within_pure steady _

theorem scanQueue_steady (job : Job) (invalid : Option InvalidReason) :
    Within Steady (scanQueue job invalid) := by
  unfold scanQueue
  split
  · apply within_bind steady (jobs_steady _ _)
    intro queued
    exact within_bind steady (jobs_steady _ _) fun _ => within_pure steady _
  · exact within_pure steady _

theorem enqueue_steady (job : Job) (now : Ns) (reason : Option PyStr)
    (superseded : List (Job × Receipt)) : Within Steady (enqueue job now reason superseded) := by
  refine within_bind steady (transaction_steady _) fun _ => ?_
  dsimp only
  split
  · apply within_bind steady
    · exact within_forEach steady (fun _ => moveTo_steady _ _ _ _) superseded
    · exact fun _ => within_bind steady (transaction_steady _) fun _ => within_pure steady _
  · exact within_bind steady (transaction_steady _) fun _ => within_pure steady _

theorem submitNew_steady (job : Job) : Within Steady (submitNew job) := by
  apply within_bind steady (within_readVolatile steady)
  intro self
  split
  · exact within_raise steady _
  · apply within_bind steady (jobs_steady _ _)
    intro stored
    split
    · exact within_raise steady _
    · apply within_bind steady (session_steady _ _)
      intro session
      apply within_bind steady nowNs_steady
      intro now
      apply within_bind steady (within_forEach steady (checkDependency_steady job) _)
      intro _
      apply within_bind steady (scanQueue_steady _ _)
      intro scan
      apply within_bind steady (jobs_steady _ _)
      exact fun queued => enqueue_steady _ _ _ _

theorem submit_steady (fields : JobFields) : Within Steady (submit fields) := by
  apply within_bind steady (within_readVolatile steady)
  intro self
  split
  · exact within_raise steady _
  · split
    · exact within_raise steady _
    · apply within_bind steady (within_readDurable steady)
      intro ledger
      split
      · exact submitNew_steady _
      · apply within_bind steady (within_ofExcept steady _)
        rintro ⟨original, receipt⟩
        dsimp only
        split
        · exact within_raise steady _
        · exact within_pure steady _

theorem handleFailure_steady (task : Task) (exception : PyExc) :
    Within Steady (handleFailure task exception) := by
  unfold handleFailure
  split
  · exact within_raise steady _
  · apply within_bind steady
    · refine within_bind steady (transaction_steady _) fun _ => ?_
      split
      · exact noted_steady _
      · exact within_pure steady _
    · intro _
      apply within_bind steady (job_steady _ _)
      intro entry
      apply within_bind steady nowNs_steady
      intro completed
      apply within_bind steady (moveTo_steady _ _ _ _)
      intro _
      split
      · exact within_pure steady _
      · exact within_bind steady (transaction_steady _) fun _ => noted_steady _

theorem preSend_steady (task : Task) : Within Steady (preSend task) := by
  apply within_bind steady (within_readVolatile steady)
  intro self
  apply within_bind steady (session_steady _ _)
  intro current
  apply within_bind steady nowNs_steady
  intro now
  split
  · exact within_pure steady _
  · refine within_bind steady (transaction_steady _) fun _ => ?_
    apply within_bind steady (job_steady _ _)
    intro entry
    apply within_bind steady (moveTo_steady _ _ _ _)
    intro _
    apply within_bind steady nowNs_steady
    intro noted
    exact within_bind steady (transaction_steady _) fun _ => within_pure steady _

theorem runStart_steady (task : Task) : Within Steady (runStart task) := by
  apply within_bind steady
  · apply within_tryFinally steady
    · apply within_tryExcept steady (preSend_steady task)
      intro exception
      exact within_bind steady (handleFailure_steady task exception) fun _ => within_pure steady _
    · exact fun _ _ => rfl
  · intro sent
    split
    · exact within_bind steady (within_modifyVolatile fun _ _ => rfl)
        fun _ => within_pure steady _
    · exact within_pure steady _

theorem cachePut_steady (task : Task) (state : JobState) (result : Prediction) (now : Ns) :
    Within Steady (cachePut task state result now) := by
  unfold cachePut
  split
  · exact within_modifyVolatile fun _ _ => rfl
  · exact within_pure steady _

theorem deliver_steady (task : Task) (result : Prediction) :
    Within Steady (deliver task result) := by
  apply within_bind steady nowNs_steady
  intro now
  apply within_bind steady (job_steady _ _)
  intro entry
  apply within_bind steady
  · unfold checkFirstContent
    split
    · exact within_pure steady _
    · split
      · exact within_raise steady _
      · split
        · exact within_pure steady _
        · exact within_raise steady _
  intro _
  refine within_bind steady (transaction_steady _) fun _ => ?_
  apply within_bind steady (session_steady _ _)
  intro session
  apply within_bind steady (within_readVolatile steady)
  intro self
  refine within_bind steady (transaction_steady _) fun _ => ?_
  apply within_bind steady (cachePut_steady task _ result now)
  intro _
  split
  · exact within_raise steady _
  · exact transaction_steady _

theorem runFinish_steady (task : Task) (reply : BackendReply) :
    Within Steady (runFinish task reply) := by
  apply within_tryFinally steady
  · apply within_tryExcept steady _ (handleFailure_steady task)
    cases reply with
    | prediction result => exact deliver_steady task result
    | notPrediction => exact within_raise steady _
    | raised exception => exact within_raise steady _
  · exact fun _ _ => rfl

theorem cancel_steady (jobId : Name) : Within Steady (cancel jobId) := by
  apply within_bind steady (within_readVolatile steady)
  intro self
  apply within_bind steady (job_steady _ _)
  rintro ⟨job, receipt⟩
  dsimp only
  split
  · refine within_bind steady (transaction_steady _) fun _ => ?_
    apply within_bind steady nowNs_steady
    intro now
    exact within_bind steady (transaction_steady _) fun _ => within_pure steady _
  · exact within_pure steady _

theorem consume_steady (jobId : Name) (consumerId : String) :
    Within Steady (consume jobId consumerId) := by
  apply within_bind steady (within_readVolatile steady)
  intro self
  apply within_bind steady (job_steady _ _)
  rintro ⟨job, receipt⟩
  apply within_bind steady (session_steady _ _)
  intro session
  apply within_bind steady nowNs_steady
  intro now
  split
  · exact within_raise steady _
  split
  · exact within_raise steady _
  split
  · split
    · exact within_raise steady _
    · exact within_pure steady _
  apply within_bind steady nowNs_steady
  intro consumedNs
  split
  · exact within_raise steady _
  refine within_bind steady (transaction_steady _) fun _ => ?_
  apply within_bind steady nowNs_steady
  intro noted
  apply within_bind steady
  · apply within_collect steady
    exact fun _ => within_bind steady nowNs_steady fun _ => within_pure steady _
  · exact fun _ => within_bind steady (transaction_steady _) fun _ => within_pure steady _

theorem recordOutcome_steady (jobId : Name) (consumerId outcome evidenceRef : String) :
    Within Steady (recordOutcome jobId consumerId outcome evidenceRef) := by
  apply within_bind steady
  · apply within_bind steady (within_readVolatile steady)
    intro self
    exact within_bind steady (job_steady _ _) fun _ => within_pure steady _
  · intro receipt
    split
    · exact within_raise steady _
    · split
      · exact within_raise steady _
      · exact noted_steady _

theorem finishClose_steady : Within Steady finishClose := by
  apply within_bind steady nowNs_steady
  intro now
  apply within_bind steady
  · exact within_bind steady (within_readDurable steady) fun _ => within_pure steady _
  · exact fun _ => transaction_steady _

end Runtime

theorem Store.reconcileMany_steady (tenant : Name) (entries : List (PyValue × PyValue × PyValue))
    (nowNs : Ns) : Within Steady (reconcileMany tenant entries nowNs : RuntimeProgram Unit) := by
  apply within_bind Runtime.steady (within_ofExcept Runtime.steady _)
  intro charges
  apply within_bind Runtime.steady (within_readDurable Runtime.steady)
  intro ledger
  apply within_bind Runtime.steady (within_ofExcept Runtime.steady _)
  exact fun _ => Runtime.transaction_steady _

theorem Store.releasePool_steady (pool : Name) (evidence : PyStr) (nowNs : Ns) :
    Within Steady (releasePool pool evidence nowNs : RuntimeProgram Unit) := by
  unfold releasePool
  split
  · exact within_raise Runtime.steady _
  · exact within_bind Runtime.steady (Runtime.transaction_steady _)
      fun _ => Runtime.transaction_steady _

theorem Action.quietly_steady {α : Type} {program : RuntimeProgram α}
    (kept : Within Steady program) : Within Steady (quietly program) :=
  within_bind Runtime.steady kept fun _ => within_pure Runtime.steady _

/-- Nothing but `close` closes a coordinator. -/
theorem Action.program_steady {action : Action} (stays : action ≠ .beginClose) :
    Within Steady action.program := by
  cases action with
  | openSession sessionId taskRevision =>
      exact quietly_steady (Runtime.openSession_steady sessionId taskRevision)
  | advanceSession sid expectedEpoch taskRevision close =>
      exact quietly_steady (Runtime.advanceSession_steady sid expectedEpoch taskRevision close)
  | heartbeat sid expectedEpoch bufferUntilNs =>
      exact quietly_steady (Runtime.heartbeat_steady sid expectedEpoch bufferUntilNs)
  | submit fields => exact quietly_steady (Runtime.submit_steady fields)
  | tick =>
      exact quietly_steady (Runtime.tick_proceeds.mono fun _ _ proceeds => proceeds.fixed)
  | startTask jobId =>
      apply within_bind Runtime.steady (within_readVolatile Runtime.steady)
      intro self
      split
      · exact within_pure Runtime.steady _
      · exact within_bind Runtime.steady (Runtime.runStart_steady _)
          fun _ => within_pure Runtime.steady _
  | finishTask jobId reply =>
      apply within_bind Runtime.steady (within_readVolatile Runtime.steady)
      intro self
      split
      · exact within_pure Runtime.steady _
      · exact quietly_steady (Runtime.runFinish_steady _ reply)
  | cancel jobId => exact quietly_steady (Runtime.cancel_steady jobId)
  | consume jobId consumerId =>
      apply within_bind Runtime.steady (Runtime.consume_steady jobId consumerId)
      intro receipt
      split
      · exact within_pure Runtime.steady _
      · exact within_pure Runtime.steady _
  | recordOutcome jobId consumerId outcome evidenceRef =>
      exact quietly_steady (Runtime.recordOutcome_steady jobId consumerId outcome evidenceRef)
  | beginClose => contradiction
  | finishClose =>
      apply within_bind Runtime.steady (within_readVolatile Runtime.steady)
      intro self
      split
      · exact within_bind Runtime.steady Runtime.finishClose_steady
          fun _ => within_pure Runtime.steady _
      · exact within_pure Runtime.steady _
  | reconcile tenant entries nowNs =>
      apply within_bind Runtime.steady (within_readVolatile Runtime.steady)
      intro self
      split
      · exact within_pure Runtime.steady _
      · exact quietly_steady (Store.reconcileMany_steady tenant entries nowNs)
  | releasePool pool evidence nowNs =>
      exact quietly_steady (Store.releasePool_steady pool evidence nowNs)

/-! ## Every queued job can be served -/

/-- The coordinator is open, knows the model contract of the job and has an
endpoint that the job allows. -/
structure Coordinator.Serves (memory : Coordinator) (job : Job) : Prop where
  awake : memory.closed = false
  registered : memory.config.modelContract job.model ≠ none
  endpoints : Runtime.allowedEndpoints memory.config job ≠ []

theorem Coordinator.Serves.fixed {self next : Coordinator} {job : Job}
    (serves : self.Serves job) (same : next.fixed = self.fixed) : next.Serves job := by
  simp only [Coordinator.fixed, Prod.mk.injEq] at same
  obtain ⟨config, -, closed, -⟩ := same
  refine ⟨closed.trans serves.awake, ?_, ?_⟩
  · rw [config]
    exact serves.registered
  · rw [config]
    exact serves.endpoints

/-- The live coordinator serves every queued job. -/
def Campaign.Served (campaign : Campaign) : Prop :=
  ∀ self ∈ campaign.live, ∀ key row, campaign.ledger.jobs.lookup key = some row →
    row.receipt.state = .queued → self.Serves row.job

/-- Only a submission puts a job into the queue. -/
theorem Commit.queued_kept {who : Author} {before after : Ledger}
    (commit : Commit who before after) (outside : ∀ nowNs, who ≠ .submission nowNs)
    {key : Name × Name} {row : JobRow} (found : after.jobs.lookup key = some row)
    (queued : row.receipt.state = .queued) : before.jobs.lookup key = some row := by
  cases earlier : before.jobs.lookup key with
  | none =>
      obtain ⟨nowNs, submits, -⟩ := (commit.row_new earlier found).1.author
      exact absurd submits (outside nowNs)
  | some old =>
      obtain ⟨next, nextFound, move, -⟩ := commit.row_kept earlier
      obtain rfl : next = row := Option.some.inj (nextFound.symm.trans found)
      rw [move.eq_of_queued queued]

theorem queued_of_chain {who : Author} {ledger : Ledger} {commits : List Ledger}
    (chain : List.IsChain (Commit who) (ledger :: commits))
    (outside : ∀ nowNs, who ≠ .submission nowNs) :
    ∀ state ∈ ledger :: commits, ∀ key row, state.jobs.lookup key = some row →
      row.receipt.state = .queued → ledger.jobs.lookup key = some row := by
  apply isChain_relates (fun first last => ∀ key row, last.jobs.lookup key = some row →
    row.receipt.state = .queued → first.jobs.lookup key = some row) _ _ chain
  · exact fun _ _ _ found _ => found
  · intro first middle last earlier commit key row found queued
    exact earlier key row (commit.queued_kept outside found queued) queued

theorem Action.author_ne_submission {action : Action} {discipline : Discipline}
    {self : Coordinator} (other : ∀ fields, action ≠ .submit fields) (nowNs : Ns) :
    action.author discipline self ≠ .submission nowNs := by
  cases action with
  | submit fields => exact absurd rfl (other fields)
  | _ => simp [Action.author]

section Steps

variable {lifetime : Lifetime} {self : Coordinator} {ledger : Ledger}

/-- Closing an open coordinator empties the queue. -/
theorem wp_beginClose_queue (running : Running lifetime ledger self) :
    wp Runtime.beginClose (Commit lifetime.coordinator)
      (fun _ after next => (after = ledger ∧ next = self) ∨
        ∀ key row, after.jobs.lookup key = some row → row.receipt.state ≠ .queued)
      (fun _ _ _ => False) ledger self := by
  simp only [Runtime.beginClose, wp_bind, wp_readVolatile]
  split
  · exact (wp_pure _).mpr (.inl ⟨rfl, rfl⟩)
  · simp only [wp_bind, wp_modifyVolatile]
    have closing : Running lifetime ledger { self with closed := true } :=
      ⟨running.toLive.of_memory rfl rfl le_rfl rfl rfl rfl running.cached rfl,
        running.current⟩
    apply wp_jobs closing.sound closing.tenant (by simp) (by simp [JobState.isLive])
    intro entries reads
    apply wp_post (wp_moveAll _ (by simp [JobState.successors]) rfl closing reads.stored
      (fun entry member => by simpa using reads.selected entry member) reads.distinct) _
      (fun _ _ _ failed => failed)
    rintro _ after next ⟨-, moved⟩
    right
    intro key row found queued
    by_cases listed : ∃ entry ∈ entries, entry.1.key = key
    · obtain ⟨entry, member, rfl⟩ := listed
      obtain ⟨updated, stored, cancelled⟩ := moved.moved entry member
      obtain rfl : row = ⟨entry.1, updated⟩ := Option.some.inj (found.symm.trans stored)
      rw [show updated.state = .queued from queued] at cancelled
      contradiction
    · simp only [not_exists, not_and] at listed
      rw [moved.others key listed] at found
      apply listed (row.job, row.receipt) (reads.complete key row found (by simp [queued]))
      exact (Table.key_of_lookup found : row.key = key)

/-- A job that a submission leaves in the queue can be served, if the queued jobs
before it could. -/
theorem Submitted.serves {job : Job} {after : Ledger} (submitted : Submitted ledger self job after)
    (served : ∀ key row, ledger.jobs.lookup key = some row → row.receipt.state = .queued →
      self.Serves row.job)
    {key : Name × Name} {row : JobRow} (found : after.jobs.lookup key = some row)
    (queued : row.receipt.state = .queued) : self.Serves row.job := by
  rcases submitted with ⟨awake, -, receipt, admission⟩ | ⟨rfl, -⟩
  · by_cases own : key = job.key
    · subst own
      obtain rfl : row = ⟨job, receipt⟩ := Option.some.inj (found.symm.trans admission.stored)
      rcases admission.decision with ⟨-, admissible⟩ | ⟨rejected, -⟩
      · exact ⟨awake, admissible.registered, admissible.endpoints⟩
      · rw [show receipt.state = .queued from queued] at rejected
        contradiction
    · apply served key row _ queued
      rw [← admission.others key own]
      · exact found
      · intro old oldFound accepted supersedable
        obtain ⟨updated, stored, superseded⟩ :=
          admission.replaced accepted old (Table.mem_of_lookup oldFound) supersedable
        have oldKey : old.key = key := Table.key_of_lookup oldFound
        rw [Ledger.Stored, show old.job.key = key from oldKey, found, Option.some.injEq] at stored
        rw [stored] at queued
        rw [show updated.state = .queued from queued] at superseded
        contradiction
  · exact served key row found queued

end Steps

namespace Campaign

variable {campaign : Campaign}

/-- A step of the live coordinator keeps its queue servable. -/
private theorem Served.act (served : campaign.Served) (sound : campaign.Sound)
    {self next : Coordinator} (live : campaign.live = some self) (action : Action)
    (nextEq : (action.program campaign.ledger self).volatile = next) {key : Name × Name}
    {row : JobRow}
    (found : (campaign.step (.act action)).1.ledger.jobs.lookup key = some row)
    (queued : row.receipt.state = .queued) : next.Serves row.job := by
  have kept : (∀ fields, action ≠ .submit fields) →
      campaign.ledger.jobs.lookup key = some row := by
    intro other
    have chain := sound.chain (.act action)
    simp only [CampaignStep.author, live] at chain
    rw [step_ledger] at found
    exact queued_of_chain chain (Action.author_ne_submission other) _ (last_mem _ _) key row found
      queued
  have stays : action ≠ .beginClose → next.fixed = self.fixed := by
    intro open_
    rw [← nextEq]
    exact (Action.program_steady open_).ends campaign.ledger self
  cases action with
  | submit fields =>
      refine Coordinator.Serves.fixed ?_ (stays (by simp))
      cases validEq : fields.validate with
      | error text =>
          apply served self live key row _ queued
          simpa [step, live, Action.program, Action.quietly, Runtime.submit, validEq, bind,
            Program.bind, readVolatile, raise, Outcome.durable] using found
      | ok job =>
          have submitted := sound.submitted live job
          rw [← JobFields.validate_ok validEq] at submitted
          exact submitted.serves (served self live) found queued
  | beginClose =>
      have before := kept (by simp)
      have meets := wp_beginClose_queue (sound.live self live)
      have closes : (campaign.step (.act .beginClose)).1.ledger = campaign.ledger ∧
          next = self ∨ ∀ key row,
            (campaign.step (.act .beginClose)).1.ledger.jobs.lookup key = some row →
              row.receipt.state ≠ .queued := by
        have ended : wp (Action.program .beginClose) (Commit (self.lifetime campaign.calls).coordinator)
            (fun _ after next => (after = campaign.ledger ∧ next = self) ∨
              ∀ key row, after.jobs.lookup key = some row → row.receipt.state ≠ .queued)
            (fun _ _ _ => False) campaign.ledger self := by
          simp only [Action.program, Action.quietly, wp_bind]
          exact wp_post meets (fun _ _ _ closed => (wp_pure _).mpr closed)
            (fun _ _ _ failed => failed)
        have post := ended.2
        simp only [step, live]
        rw [← nextEq]
        split at post
        · exact post
        · contradiction
      rcases closes with ⟨-, rfl⟩ | empty
      · exact served next live key row before queued
      · exact absurd queued (empty key row found)
  | _ =>
      exact (served self live key row (kept (by simp)) queued).fixed (stays (by simp))

theorem Served.step (served : campaign.Served) (sound : campaign.Sound) (label : CampaignStep) :
    (campaign.step label).1.Served := by
  intro next nextLive key row found queued
  rcases sound.live_step label nextLive with ⟨self, live, -⟩ | ⟨-, quiet⟩
  · rw [Option.mem_def] at live
    cases label with
    | act action =>
        apply served.act sound live action _ found queued
        simp only [Campaign.step, live, Option.mem_def] at nextLive
        split at nextLive
        · contradiction
        · exact Option.some.inj nextLive
    | crash action count => simp [Campaign.step, live] at nextLive
    | _ =>
        simp only [Campaign.step, live] at nextLive found
        obtain rfl : self = next := Option.some.inj nextLive
        exact served self live key row found queued
  · have ended := quiet.rows key row found
    rw [queued] at ended
    contradiction

/-- In every reachable campaign the live coordinator serves every queued job. -/
theorem served_run (caps : BudgetCaps) (steps : List CampaignStep) :
    ((fresh caps).run steps).Served := by
  have both : Sound ((fresh caps).run steps) ∧ Served ((fresh caps).run steps) :=
    runSteps_invariant (fun campaign => Sound campaign ∧ Served campaign)
      (fun _ label _ holds => ⟨holds.1.step label, holds.2.step holds.1 label⟩)
      (stepsMeet_true _ _) ⟨sound_fresh caps, by simp [Served, fresh]⟩
  exact both.2

end Campaign

end AgminaRuntime
