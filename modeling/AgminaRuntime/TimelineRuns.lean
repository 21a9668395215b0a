import AgminaRuntime.TimelineSteps

/-!
# Timelines over whole runs

Sessions, reconciliations and recoveries write no instant.  A result of an
earlier lifetime cannot be consumed, so a new coordinator, whose clock need not
agree with the last one, never adds to a timeline that another has begun.
-/

namespace AgminaRuntime

open Durable Durable.Program Keyed

/-! ## Without a coordinator -/

namespace Ledger.Timely

variable {ledger after : Ledger}

/-- Jobs and events decide. -/
theorem frame (timely : ledger.Timely) (jobs : after.jobs = ledger.jobs)
    (events : after.events = ledger.events) : after.Timely :=
  ⟨by rw [jobs]; exact timely.kept, by rw [jobs]; exact timely.own,
    by rw [events]; exact timely.ages⟩

theorem note (timely : ledger.Timely) (atNs : Ns) (event : Event) (aged : event.Aged) :
    (ledger.note atNs event).Timely := by
  refine ⟨timely.kept, timely.own, ?_⟩
  intro entry member
  rcases List.mem_append.mp member with earlier | own
  · exact timely.ages entry earlier
  · rw [List.mem_singleton.mp own]
    exact aged

theorem write (timely : ledger.Timely) {tenant : Name} {receipt : Receipt}
    (kept : receipt.Kept) : (ledger.writeReceipt tenant receipt).Timely := by
  refine ⟨fun key row found => ?_, fun key row found => ?_, timely.ages⟩
  · rcases Ledger.row_of_writeReceipt found with earlier | ⟨-, same⟩
    · exact timely.kept key row earlier
    · rw [same]
      exact kept
  · rcases Ledger.row_of_writeReceipt found with earlier | ⟨keyEq, same⟩
    · exact timely.own key row earlier
    · have keys := (Table.key_of_lookup found).trans keyEq
      rw [same]
      exact (congrArg Prod.snd keys).symm

/-- Charges settle attempts only. -/
theorem charged (timely : ledger.Timely) {tenant : Name} {nowNs : Ns} {charges : List Charge}
    (applied : Store.applyCharges tenant nowNs charges ledger = .ok after) : after.Timely := by
  induction charges generalizing ledger with
  | nil =>
      rw [← Except.ok.inj applied]
      exact timely
  | cons charge rest ih =>
      unfold Store.applyCharges at applied
      split at applied
      · split at applied
        · contradiction
        · contradiction
        · split at applied
          · contradiction
          · refine ih (note ?_ nowNs _ ?_) applied
            · exact timely.frame rfl rfl
            · simp [Event.Aged]
      · contradiction

end Ledger.Timely

section Offline

variable {μ : Type} {ledger : Ledger} {memory : μ}

theorem wp_reconcileMany_timely (timely : ledger.Timely) (tenant : Name)
    (entries : List (PyValue × PyValue × PyValue)) (nowNs : Ns)
    {normal : Unit → Ledger → μ → Prop} {raised : PyExc → Ledger → μ → Prop}
    (returns : ∀ after, after.Timely → after.jobs = ledger.jobs →
      after.sessions = ledger.sessions → normal () after memory)
    (refuses : ∀ exception, raised exception ledger memory) :
    wp (Store.reconcileMany tenant entries nowNs) (fun _ after => after.Timely) normal raised
      ledger memory := by
  simp only [Store.reconcileMany, wp_bind, wp_ofExcept]
  split
  · simp only [wp_bind, wp_readDurable, wp_ofExcept]
    split
    · rw [wp_transaction]
      split
      · rename_i after applied
        have charged := timely.charged applied
        obtain ⟨attempts, events, rfl⟩ := Store.applyCharges_frame applied
        exact ⟨charged, returns _ charged rfl rfl⟩
      · exact refuses _
    · exact refuses _
  · exact refuses _

theorem wp_releasePool_timely (timely : ledger.Timely) (pool : Name) (evidence : PyStr)
    (nowNs : Ns) {normal : Unit → Ledger → μ → Prop} {raised : PyExc → Ledger → μ → Prop}
    (returns : ∀ after, after.Timely → after.jobs = ledger.jobs →
      after.sessions = ledger.sessions → normal () after memory)
    (refuses : ∀ exception, raised exception ledger memory) :
    wp (Store.releasePool pool evidence nowNs) (fun _ after => after.Timely) normal raised
      ledger memory := by
  simp only [Store.releasePool, wp_ite, wp_raise, wp_bind, wp_commit, wp_event]
  split
  · exact refuses _
  · have released : (ledger.releaseQuarantine pool).Timely := timely.frame rfl rfl
    have noted := released.note nowNs (.poolReleased pool evidence) (by simp [Event.Aged])
    exact ⟨released, noted, returns _ noted rfl rfl⟩

/-- An operator beside no coordinator. -/
theorem wp_operation_timely {ledger : Ledger} (timely : ledger.Timely) (operation : Operation) :
    wp operation.program (fun _ after => after.Timely) (fun _ _ _ => True) (fun _ _ _ => True)
      ledger () := by
  cases operation with
  | reconcile tenant entries nowNs =>
      exact wp_reconcileMany_timely timely tenant entries nowNs (fun _ _ _ _ => trivial)
        fun _ => trivial
  | releasePool pool evidence nowNs =>
      exact wp_releasePool_timely timely pool evidence nowNs (fun _ _ _ _ => trivial)
        fun _ => trivial
  | extendBudget maxAttempts maxMicrousd approvalRef nowNs =>
      simp only [Operation.program, Store.extendBudget, wp_bind, wp_readDurable, wp_ite, wp_raise,
        wp_commit, wp_event]
      split
      · trivial
      · have extended : Ledger.Timely { ledger with caps := { ledger.caps with
            maxAttempts := maxAttempts.toNat, maxMicrousd := maxMicrousd.toNat } } :=
          timely.frame rfl rfl
        exact ⟨extended, extended.note nowNs _ (by simp [Event.Aged]), trivial⟩

/-- A live receipt is given up, and its attempt held again. -/
theorem wp_recoverJob_timely (timely : ledger.Timely) (tenant : Name) (now : Ns)
    {entry : Job × Receipt} (kept : entry.2.Kept) (live : entry.2.state.isLive = true)
    {raised : PyExc → Ledger → μ → Prop} :
    wp (Store.recoverJob tenant now entry) (fun _ after => after.Timely)
      (fun _ after _ => after.Timely) raised ledger memory := by
  obtain ⟨job, old⟩ := entry
  have unclaimed : old.state ≠ .consumed := by
    intro consumed
    rw [show old.state = .consumed from consumed] at live
    contradiction
  simp only [Store.recoverJob, Store.recoverRunning, wp_bind, wp_receipt]
  by_cases running : old.state = .running
  · have written : Ledger.Timely (ledger.writeReceipt tenant
        { old with state := .unknown, reason := some "coordinator_restart" }) :=
      timely.write (kept.moved unclaimed (.inl rfl) _)
    simp only [running, if_true, wp_bind, wp_readDurable]
    refine ⟨written, ?_⟩
    split
    · have noted := written.note now (.recoveryInvalidated job.id .unknown) (by simp [Event.Aged])
      simp only [wp_pure, wp_event]
      exact ⟨noted, noted⟩
    · rename_i attempt _
      simp only [wp_bind, wp_quarantine, wp_settle, wp_event, Option.bind_none]
      refine ⟨written.frame rfl rfl, written.frame rfl rfl, ?_⟩
      have noted := written.note now (.recoveryInvalidated job.id .unknown) (by simp [Event.Aged])
      exact ⟨noted.frame rfl rfl, noted.frame rfl rfl⟩
  · have written : Ledger.Timely (ledger.writeReceipt tenant
        { old with state := .cancelled, reason := some "coordinator_restart" }) :=
      timely.write (kept.moved unclaimed (.inl rfl) _)
    have noted := written.note now (.recoveryInvalidated job.id .cancelled) (by simp [Event.Aged])
    simp only [running, if_false, wp_pure, wp_event]
    exact ⟨written, noted, noted⟩

theorem wp_recover_timely (timely : ledger.Timely) (tenant : Name) (now : Ns) :
    wp (Store.recover tenant now) (fun _ after => after.Timely) (fun _ after _ => after.Timely)
      (fun _ _ _ => True) ledger memory := by
  simp only [Store.recover, wp_bind, wp_jobs_iff]
  split
  · rename_i entries read
    refine wp_post (wp_forEach (fun rest after _ => after.Timely ∧
      ∀ entry ∈ rest, entry.2.Kept ∧ entry.2.state.isLive = true) ?_ ⟨timely, ?_⟩) ?_
      (fun _ _ _ failed => failed)
    · rintro entry rest middle memory ⟨timely, waiting⟩
      rw [List.forall_mem_cons] at waiting
      apply wp_post (wp_recoverJob_timely timely tenant now waiting.1.1 waiting.1.2)
      · exact fun _ _ _ kept => ⟨kept, waiting.2⟩
      · exact fun _ _ _ failed => failed
    · intro entry member
      obtain ⟨row, rowMember, sameJob, parsed⟩ := readRows_reparsed read entry member
      simp only [Store.selectJobs, List.mem_filter, decide_eq_true_eq] at rowMember
      have found := Table.lookup_of_mem rowMember.1
      refine ⟨(timely.kept _ _ found).reparse parsed, ?_⟩
      rw [(Receipt.state_reparse parsed).1]
      rcases rowMember.2.2 with impossible | selected
      · simp at impossible
      · simp only [List.mem_cons, List.not_mem_nil, or_false] at selected
        rcases selected with queued | running
        · rw [queued]
          rfl
        · rw [running]
          rfl
    rintro _ ended memory ⟨timely, -⟩
    simp only [wp_bind, wp_readDurable]
    refine wp_post (wp_forEach (fun _ after _ => after.Timely) ?_ timely) ?_
      (fun _ _ _ failed => failed)
    · intro attempt rest middle memory timely
      simp only [Store.recoverAttempt, wp_bind, wp_quarantine, wp_commit, wp_event]
      have noted := timely.note now (.recoveryUnconfirmedAttempt attempt.job attempt.pool)
        (by simp [Event.Aged])
      exact ⟨timely.frame rfl rfl, timely.frame rfl rfl, noted.frame rfl rfl, noted.frame rfl rfl⟩
    intro _ free memory timely
    simp only [wp_bind, wp_readDurable]
    refine wp_post (wp_forEach (fun _ after _ => after.Timely) ?_ timely)
      (fun _ _ _ kept => kept) (fun _ _ _ failed => failed)
    intro session rest middle memory timely
    simp only [Store.recoverSession, wp_putSession]
    exact ⟨timely.frame rfl rfl, timely.frame rfl rfl⟩
  · trivial

/-- Whatever a start commits is in order. -/
theorem start_timely {ledger : Ledger} (timely : ledger.Timely) (args : StartArgs) :
    List.IsChain (fun _ after => Ledger.Timely after)
      (ledger :: (Runtime.start ledger args.memory).commits) := by
  by_cases accepts : ledger.Accepts args.config
  · have bound : (ledger.bindTenant args.config.tenant).Timely := timely.frame rfl rfl
    have meets : wp Runtime.start (fun _ after => after.Timely) (fun _ _ _ => True)
        (fun _ _ _ => True) ledger args.memory := by
      apply wp_start_accepted accepts bound
      intro _
      apply wp_post (wp_recover_timely bound _ _)
      · exact fun _ middle memory kept => ⟨kept.note _ _ (by simp [Event.Aged]), trivial⟩
      · exact fun _ _ _ failed => failed
    exact meets.1
  · have refused := (wp_start_refused accepts : wp _ _ _ _ ledger args.memory).1
    exact refused.imp fun _ _ impossible => absurd impossible id

end Offline

/-! ## Sessions and the operator -/

section Sessions

variable {since : Ns} {lifetime : Lifetime} {ledger : Ledger} {self : Coordinator}

theorem wp_openSession_timed (running : Running lifetime ledger self)
    (timed : Timed since ledger self) (sessionId taskRevision : String) :
    wp (Runtime.openSession sessionId taskRevision) (fun _ after => after.Timely)
      (fun _ => Timed since) (fun _ => Timed since) ledger self := by
  simp only [Runtime.openSession, wp_bind, wp_readVolatile, wp_nowNs, wp_readDurable]
  have within := timed.read.weaken timed.since
  split
  · exact (wp_raise _).mpr within
  split
  · rename_i id revision epoch idEq _ next
    rw [idEq] at next
    simp only [Option.bind_some] at next
    have commit : Commit lifetime.coordinator ledger (ledger.putSession
        ⟨self.config.tenant, id, epoch, revision, self.clock.id, .active,
          self.clock.nowNs self.reads, none⟩) := .turnover running.tenant next
    have opened := within.sessions commit rfl rfl
    have noted := opened.note (self.clock.nowNs self.reads)
      (.sessionOpened id epoch) (by simp [Event.Aged])
    simp only [wp_bind, wp_putSession, wp_event, wp_pure]
    exact ⟨opened.timely, noted.timely, noted⟩
  · exact (wp_raise _).mpr within

theorem wp_advanceSession_timed (running : Running lifetime ledger self)
    (timed : Timed since ledger self) (sid : Name) (expectedEpoch : Int) (taskRevision : String)
    (close : Bool) :
    wp (Runtime.advanceSession sid expectedEpoch taskRevision close)
      (fun _ after => after.Timely) (fun _ => Timed since) (fun _ => Timed since) ledger self := by
  simp only [Runtime.advanceSession, wp_bind, wp_readVolatile, wp_session_iff]
  split
  · exact timed
  rename_i old found
  split
  · exact (wp_raise _).mpr timed
  simp only [wp_bind, wp_nowNs]
  have within := timed.read.weaken timed.since
  split
  · rename_i revision epoch _ next
    have bound : ledger.tenant = some old.tenant := running.sound.sessions _ _ found
    have oldKey := Table.key_of_lookup found
    let session : Session :=
      ⟨old.tenant, old.id, epoch, revision, self.clock.id,
        if close then .closed else .active, self.clock.nowNs self.reads, none⟩
    have commit : Commit lifetime.coordinator ledger (ledger.putSession session) := by
      refine .turnover bound ?_
      rw [show session.key = (self.config.tenant, sid) from oldKey, found]
      exact next
    have turned := within.sessions commit rfl rfl
    have noted := (turned.read.weaken turned.since).note
      (self.clock.nowNs (self.reads + 1)) (.sessionAdvanced old.id epoch)
      (by simp [Event.Aged])
    simp only [wp_bind, wp_putSession, wp_event, wp_nowNs]
    refine ⟨turned.timely, noted.timely, ?_⟩
    apply wp_post (wp_expire_timed noted)
    · exact fun _ _ _ kept => (wp_pure _).mpr kept
    · exact fun _ _ _ kept => kept
  · exact (wp_raise _).mpr within

theorem wp_heartbeat_timed (timed : Timed since ledger self) (sid : Name) (expectedEpoch : Int)
    (bufferUntilNs : Option Int) :
    wp (Runtime.heartbeat sid expectedEpoch bufferUntilNs) (fun _ after => after.Timely)
      (fun _ => Timed since) (fun _ => Timed since) ledger self := by
  simp only [Runtime.heartbeat, wp_bind, wp_readVolatile, wp_session_iff]
  split
  · exact timed
  rename_i old found
  simp only [wp_nowNs, wp_ite, wp_raise]
  have within := timed.read.weaken timed.since
  split
  · exact within
  split
  · exact within
  split
  · exact within
  simp only [wp_bind, wp_putSession, wp_event, wp_pure]
  have oldKey := Table.key_of_lookup found
  obtain rfl : old.id = sid := congrArg Prod.snd oldKey
  have stored : ledger.sessions.lookup old.key = some old := by
    rw [show old.key = (self.config.tenant, old.id) from oldKey]
    exact found
  have beaten := within.sessions (Commit.heartbeat (self.clock.nowNs self.reads)
    (bufferUntilNs.map fun until_ => Fin.ofNat (2 ^ 63) until_.toNat) stored) rfl rfl
  have noted := beaten.note (self.clock.nowNs self.reads) (.bufferObserved old.id old.epoch
    (bufferUntilNs.map fun until_ => Fin.ofNat (2 ^ 63) until_.toNat)) (by simp [Event.Aged])
  exact ⟨beaten.timely, noted.timely, noted⟩

theorem wp_recordOutcome_timed (timed : Timed since ledger self) (jobId : Name)
    (consumerId outcome evidenceRef : String) :
    wp (Runtime.recordOutcome jobId consumerId outcome evidenceRef) (fun _ after => after.Timely)
      (fun _ => Timed since) (fun _ => Timed since) ledger self := by
  simp only [Runtime.recordOutcome, Runtime.result, wp_bind, wp_readVolatile]
  apply wp_job_intro timed timed
  intro row receipt _ _
  apply (wp_pure _).mpr
  rw [wp_ite]
  split
  · exact (wp_raise _).mpr timed
  rw [wp_ite]
  split
  · exact (wp_raise _).mpr timed
  simp only [wp_bind, wp_nowNs, wp_event]
  have noted := (timed.read.weaken timed.since).note (self.clock.nowNs self.reads)
    (.consumerReportedOutcome jobId outcome evidenceRef) (by simp [Event.Aged])
  exact ⟨noted.timely, noted⟩

theorem wp_beginClose_timed (timed : Timed since ledger self) :
    wp Runtime.beginClose (fun _ after => after.Timely) (fun _ => Timed since)
      (fun _ => Timed since) ledger self := by
  simp only [Runtime.beginClose, wp_bind, wp_readVolatile]
  split
  · exact (wp_pure _).mpr timed
  simp only [wp_bind, wp_modifyVolatile]
  have closing : Timed since ledger { self with closed := true } :=
    timed.memory rfl rfl (fun task member => ⟨task, member, rfl⟩) timed.cached
  apply wp_jobs_timed closing (by simp [JobState.isLive]) (by simp)
  · exact fun _ => closing
  intro entries reads
  apply wp_post (wp_moveAll_timed closing.rebase (fun entry member => (reads entry member).1) rfl
    (by simp) _)
  · exact fun _ _ _ kept => kept.weaken closing.since
  · exact fun _ _ _ failed => failed

theorem wp_finishClose_timed (timed : Timed since ledger self) :
    wp Runtime.finishClose (fun _ after => after.Timely) (fun _ => Timed since)
      (fun _ => Timed since) ledger self := by
  simp only [Runtime.finishClose, wp_bind, wp_nowNs, wp_quarantined, wp_event]
  have noted := (timed.read.weaken timed.since).note (self.clock.nowNs self.reads)
    (.coordinatorStopped (ledger.quarantined)) (by simp [Event.Aged])
  exact ⟨noted.timely, noted⟩

end Sessions

/-! ## Steps of a live coordinator -/

section Actions

variable {since : Ns} {ledger : Ledger} {self : Coordinator}

theorem wp_quietly_timed {α : Type} {program : RuntimeProgram α}
    (meets : wp program (fun _ after => after.Timely) (fun _ => Timed since)
      (fun _ => Timed since) ledger self) :
    wp (Action.quietly program) (fun _ after => after.Timely) (fun _ => Timed since)
      (fun _ => Timed since) ledger self := by
  simp only [Action.quietly, wp_bind]
  apply wp_post meets
  · exact fun _ _ _ kept => (wp_pure _).mpr kept
  · exact fun _ _ _ kept => kept

theorem wp_startTask_timed (timed : Timed since ledger self) (jobId : Name) :
    wp (Action.startTask jobId).program (fun _ after => after.Timely) (fun _ => Timed since)
      (fun _ => Timed since) ledger self := by
  simp only [Action.program, wp_bind, wp_readVolatile]
  split
  · exact (wp_pure _).mpr timed
  · rename_i task found
    simp only [wp_bind]
    apply wp_post (wp_runStart_timed timed (Coordinator.task?_some found).1)
    · exact fun _ _ _ kept => (wp_pure _).mpr kept
    · exact fun _ _ _ kept => kept

theorem wp_finishTask_timed (timed : Timed since ledger self) (jobId : Name)
    (reply : BackendReply) :
    wp (Action.finishTask jobId reply).program (fun _ after => after.Timely)
      (fun _ => Timed since) (fun _ => Timed since) ledger self := by
  simp only [Action.program, wp_bind, wp_readVolatile]
  split
  · exact (wp_pure _).mpr timed
  · rename_i task found
    exact wp_quietly_timed (wp_runFinish_timed timed (Coordinator.task?_some found).1 reply)

/-- The journal changes where the timelines do not depend on it. -/
theorem Timed.operated (timed : Timed since ledger self) {after : Ledger} (timely : after.Timely)
    (jobs : after.jobs = ledger.jobs) (sessions : after.sessions = ledger.sessions) :
    Timed since after self :=
  have framed : Timed since { after with events := ledger.events } self :=
    timed.frame jobs sessions rfl
  { framed with timely := timely }

/-- Every step of a live coordinator keeps the timelines. -/
theorem wp_action_timed {called : List (Name × Name)}
    (running : Running (self.lifetime called) ledger self) (timed : Timed since ledger self)
    (action : Action) :
    wp action.program (fun _ after => after.Timely) (fun _ => Timed since) (fun _ => Timed since)
      ledger self := by
  cases action with
  | openSession sessionId taskRevision =>
      exact wp_quietly_timed (wp_openSession_timed running timed sessionId taskRevision)
  | advanceSession sid expectedEpoch taskRevision close =>
      exact wp_quietly_timed
        (wp_advanceSession_timed running timed sid expectedEpoch taskRevision close)
  | heartbeat sid expectedEpoch bufferUntilNs =>
      exact wp_quietly_timed (wp_heartbeat_timed timed sid expectedEpoch bufferUntilNs)
  | submit fields => exact wp_quietly_timed (wp_submit_timed running timed fields)
  | tick => exact wp_quietly_timed (wp_tick_timed timed)
  | startTask jobId => exact wp_startTask_timed timed jobId
  | finishTask jobId reply => exact wp_finishTask_timed timed jobId reply
  | cancel jobId => exact wp_quietly_timed (wp_cancel_timed timed jobId)
  | consume jobId consumerId =>
      simp only [Action.program, wp_bind]
      apply wp_post (wp_consume_timed running timed jobId consumerId)
      · intro receipt after memory kept
        split <;> exact (wp_pure _).mpr kept
      · exact fun _ _ _ kept => kept
  | recordOutcome jobId consumerId outcome evidenceRef =>
      exact wp_quietly_timed (wp_recordOutcome_timed timed jobId consumerId outcome evidenceRef)
  | beginClose => exact wp_quietly_timed (wp_beginClose_timed timed)
  | finishClose =>
      simp only [Action.program, wp_bind, wp_readVolatile]
      rw [wp_ite]
      split
      · simp only [wp_bind]
        apply wp_post (wp_finishClose_timed timed)
        · exact fun _ _ _ kept => (wp_pure _).mpr kept
        · exact fun _ _ _ kept => kept
      · exact (wp_pure _).mpr timed
  | reconcile tenant entries nowNs =>
      simp only [Action.program, wp_bind, wp_readVolatile]
      rw [wp_ite]
      split
      · exact (wp_pure _).mpr timed
      · exact wp_quietly_timed (wp_reconcileMany_timely timed.timely tenant entries nowNs
          (fun _ timely jobs sessions => timed.operated timely jobs sessions) fun _ => timed)
  | releasePool pool evidence nowNs =>
      exact wp_quietly_timed (wp_releasePool_timely timed.timely pool evidence nowNs
        (fun _ timely jobs sessions => timed.operated timely jobs sessions) fun _ => timed)

end Actions

/-! ## Whole runs -/

/-- Every job with an unclaimed result was admitted to its session. -/
def Ledger.Vouched (ledger : Ledger) : Prop :=
  ∀ key row, ledger.jobs.lookup key = some row → row.receipt.state = .succeeded →
    ledger.Admitted row.job

/-- A result comes from a live receipt. -/
theorem Author.Moves.live_of_succeeded {who : Author} {old : JobState}
    (moves : who.Moves old .succeeded) : old.isLive = true := by
  rcases moves with edge | ⟨_, _, _, ended, same | ⟨_, overwritten⟩⟩
  · cases old <;> simp_all [JobState.successors, JobState.isLive]
  · rw [← same] at ended
    simp at ended
  · simp at overwritten

theorem Commit.vouched {who : Author} {before after : Ledger} (commit : Commit who before after)
    (sound : before.Sound) (vouched : before.Vouched) : after.Vouched := by
  intro key row found succeeded
  cases earlier : before.jobs.lookup key with
  | none =>
      obtain ⟨adds, -⟩ := commit.row_new earlier found
      rcases adds.initial with queued | rejected
      · rw [queued] at succeeded
        contradiction
      · rw [rejected] at succeeded
        contradiction
  | some old =>
      obtain ⟨next, nextFound, move, -⟩ := commit.row_kept earlier
      obtain rfl : next = row := Option.some.inj (nextFound.symm.trans found)
      apply commit.admitted
      cases move with
      | kept => exact vouched key _ earlier succeeded
      | @written receipt sameJob complete moves cached legible answered =>
          apply (sound.rows key old earlier).admitted
          rw [show receipt.state = .succeeded from succeeded] at moves
          exact moves.live_of_succeeded

/-- A coordinator that starts on a quiet ledger can add to no timeline. -/
theorem Timed.of_quiet {ledger : Ledger} {self : Coordinator} (timely : ledger.Timely)
    (vouched : ledger.Vouched) (quiet : ledger.Quiet) (steady : Monotone self.clock.nowNs)
    (idle : self.running = []) (empty : self.cache.data = []) : Timed self.now ledger self where
  timely := timely
  steady := steady
  since := le_rfl
  live := by
    intro key row found live
    rw [quiet.rows key row found] at live
    contradiction
  tasks := by simp [idle]
  answered := fun key row found succeeded =>
    .inr (quiet.departed (vouched key row found succeeded))
  cached := by simp [empty]

/-- The step starts no coordinator, or one whose clock does not go back. -/
def CampaignStep.Steady : CampaignStep → Prop
  | .start args => Monotone args.clock.nowNs
  | _ => True

namespace Campaign

variable {campaign : Campaign}

/-- The journal is in order, and so is what a live coordinator may add to it. -/
structure Timely (campaign : Campaign) : Prop where
  ledger : campaign.ledger.Timely
  vouched : campaign.ledger.Vouched
  live : ∀ self ∈ campaign.live, Timed self.now campaign.ledger self

/-- Whatever a step commits is in order. -/
theorem Timely.commits (timely : campaign.Timely) (sound : campaign.Sound)
    (label : CampaignStep) :
    List.IsChain (fun _ after => Ledger.Timely after)
      (campaign.ledger :: (campaign.step label).2) := by
  cases label with
  | act action =>
      simp only [step]
      split
      · exact .singleton _
      · rename_i self live
        exact (wp_action_timed (sound.live self live) (timely.live self live) action).1
  | crash action count =>
      simp only [step]
      split
      · exact .singleton _
      · rename_i self live
        exact isChain_take
          (wp_action_timed (sound.live self live) (timely.live self live) action).1 count
  | start args =>
      simp only [step]
      split
      · exact .singleton _
      · exact start_timely timely.ledger args
  | crashStart args count =>
      simp only [step]
      split
      · exact .singleton _
      · exact isChain_take (start_timely timely.ledger args) count
  | operate operation =>
      simp only [step]
      split
      · exact .singleton _
      · exact (wp_operation_timely timely.ledger operation).1
  | crashOperate operation count =>
      simp only [step]
      split
      · exact .singleton _
      · exact isChain_take (wp_operation_timely timely.ledger operation).1 count

theorem Timely.step (timely : campaign.Timely) (sound : campaign.Sound) {label : CampaignStep}
    (steady : label.Steady) : (campaign.step label).1.Timely := by
  have ledger : (campaign.step label).1.ledger.Timely := by
    rw [step_ledger]
    exact isChain_preserves Ledger.Timely (fun _ _ kept _ => kept) (timely.commits sound label)
      timely.ledger _ (last_mem _ _)
  have vouched : (campaign.step label).1.ledger.Vouched := by
    have both := isChain_preserves (fun ledger => ledger.Sound ∧ ledger.Vouched)
      (fun before after commit holds => ⟨commit.sound holds.1, commit.vouched holds.1 holds.2⟩)
      (sound.chain label) ⟨sound.ledger, timely.vouched⟩
    rw [step_ledger]
    exact (both _ (last_mem _ _)).2
  refine ⟨ledger, vouched, ?_⟩
  intro next nextLive
  cases live : campaign.live with
  | none =>
      cases label with
      | start args =>
          simp only [Campaign.step, live] at nextLive ledger vouched ⊢
          obtain ⟨valueEq, rfl⟩ := started_some nextLive
          obtain ⟨quiet, -, -, reads, memoryEq⟩ := started sound.ledger valueEq
          apply Timed.of_quiet ledger vouched quiet
          · rw [memoryEq]
            exact steady
          · rw [memoryEq]
            rfl
          · rw [memoryEq]
            rfl
      | _ => simp [Campaign.step, live] at nextLive
  | some self =>
      cases label with
      | act action =>
          have kept := (wp_action_timed (sound.live self live) (timely.live self live) action).2
          simp only [Campaign.step, live, Option.mem_def] at nextLive ⊢
          split at nextLive
          · contradiction
          obtain rfl := Option.some.inj nextLive
          cases valueEq : (action.program campaign.ledger self).value with
          | ok visible =>
              simp only [valueEq] at kept
              exact kept.rebase
          | error exception =>
              simp only [valueEq] at kept
              exact kept.rebase
      | crash action count => simp [Campaign.step, live] at nextLive
      | _ =>
          simp only [Campaign.step, live, Option.mem_def, Option.some.injEq] at nextLive ⊢
          subst nextLive
          exact timely.live _ live

/-- While no clock goes back, every ledger of a run is in order. -/
theorem history_timely (caps : BudgetCaps) {steps : List CampaignStep}
    (steady : ∀ label ∈ steps, label.Steady) : ∀ ledger ∈ history caps steps, ledger.Timely := by
  have initially : (fresh caps).Timely := by
    refine ⟨⟨?_, ?_, ?_⟩, ?_, ?_⟩
    · intro key row found
      simp [fresh, Ledger.create] at found
    · intro key row found
      simp [fresh, Ledger.create] at found
    · simp [fresh, Ledger.create]
    · intro key row found
      simp [fresh, Ledger.create] at found
    · simp [fresh]
  have chain := runSteps_chain (fun campaign => Sound campaign ∧ Timely campaign) Campaign.ledger
    (fun _ _ steady holds => ⟨holds.1.step _, holds.2.step holds.1 steady⟩) step_ledger
    (fun _ label _ holds => holds.2.commits holds.1 label)
    (stepsMeet_of_forall (fun label member _ => steady label member) (fresh caps))
    ⟨sound_fresh caps, initially⟩
  exact isChain_preserves Ledger.Timely (fun _ _ kept _ => kept) chain initially.ledger

end Campaign

end AgminaRuntime
