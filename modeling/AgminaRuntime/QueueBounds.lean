import AgminaRuntime.LatestReplacement
import AgminaRuntime.QueueService
import AgminaRuntime.SubmissionAtomicity

/-!
# Bounds of the queue and of the journal

Only a submission adds jobs, at most one, and it refuses one beyond
`max_jobs`.  It queues the job only if the queue has room once the replaced
jobs have left it, and these leave it in the same call.
-/

namespace AgminaRuntime

open Durable Durable.Program Keyed

/-! ## What is not a submission -/

/-- Only a submission adds jobs. -/
theorem Commit.jobs_length {who : Author} {before after : Ledger}
    (commit : Commit who before after) (outside : ∀ nowNs, who ≠ .submission nowNs) :
    after.jobs.rows.length ≤ before.jobs.rows.length := by
  apply Table.length_le_length
  intro key row found
  cases earlier : before.jobs.lookup key with
  | some old => exact ⟨old, rfl⟩
  | none =>
      obtain ⟨nowNs, submits, -⟩ := (commit.row_new earlier found).1.author
      exact absurd submits (outside nowNs)

theorem jobs_length_of_chain {who : Author} {ledger : Ledger} {commits : List Ledger}
    (chain : List.IsChain (Commit who) (ledger :: commits))
    (outside : ∀ nowNs, who ≠ .submission nowNs) :
    ∀ state ∈ ledger :: commits, state.jobs.rows.length ≤ ledger.jobs.rows.length := by
  apply isChain_relates (fun first last => last.jobs.rows.length ≤ first.jobs.rows.length) _ _
    chain
  · exact fun _ => le_rfl
  · intro first middle last earlier commit
    exact (commit.jobs_length outside).trans earlier

theorem mem_queuedRows {ledger : Ledger} {row : JobRow} :
    row ∈ queuedRows ledger ↔
      ledger.jobs.lookup row.key = some row ∧ row.receipt.state = .queued := by
  simp only [queuedRows, List.mem_filter, decide_eq_true_eq]
  constructor
  · exact fun both => ⟨Table.lookup_of_mem both.1, both.2⟩
  · exact fun both => ⟨Table.mem_of_lookup both.1, both.2⟩

theorem nodup_queuedRows (ledger : Ledger) : (queuedRows ledger).Nodup :=
  (List.Nodup.of_map _ ledger.jobs.distinct).filter _

/-- A queue that keeps only jobs it had is not longer. -/
theorem queuedRows_length_le {before after : Ledger}
    (kept : ∀ key row, after.jobs.lookup key = some row → row.receipt.state = .queued →
      before.jobs.lookup key = some row) :
    (queuedRows after).length ≤ (queuedRows before).length := by
  apply List.Subperm.length_le
  apply (nodup_queuedRows after).subperm
  intro row member
  obtain ⟨found, queued⟩ := mem_queuedRows.mp member
  exact mem_queuedRows.mpr ⟨kept row.key row found queued, queued⟩

/-! ## What a submission leaves -/

section Admitted

variable {before after : Ledger} {memory : Coordinator} {job : Job} {receipt : Receipt}

/-- A submission adds at most its own job. -/
theorem Admission.jobs_length (admission : Admission before memory job receipt after) :
    after.jobs.rows.length ≤ before.jobs.rows.length + 1 := by
  have within : after.jobs.rows.map JobRow.key ⊆ job.key :: before.jobs.rows.map JobRow.key := by
    intro key member
    obtain ⟨row, rowMember, rfl⟩ := List.mem_map.mp member
    by_cases own : row.key = job.key
    · rw [own]
      exact List.mem_cons_self
    · apply List.mem_cons_of_mem
      by_contra missing
      have absent : before.jobs.lookup row.key = none := 
        Table.lookup_eq_none_iff.mpr fun old oldMember same =>
          missing (List.mem_map.mpr ⟨old, oldMember, same⟩)
      have same := admission.others row.key own fun old found => by
        rw [absent] at found
        contradiction
      rw [Table.lookup_of_mem rowMember, absent] at same
      contradiction
  simpa using (after.jobs.distinct.subperm within).length_le

/-- A submission that is rejected touches no other job. -/
theorem Admission.others_of_rejected (admission : Admission before memory job receipt after)
    (rejected : receipt.state = .rejected) {key : Name × Name} (other : key ≠ job.key) :
    after.jobs.lookup key = before.jobs.lookup key := by
  apply admission.others key other
  intro row _ queued
  rw [rejected] at queued
  contradiction

/-- What is queued after an accepted submission: the job itself and the jobs that
it does not replace. -/
theorem Admission.queued_of_accepted (admission : Admission before memory job receipt after)
    (accepted : receipt.state = .queued) {row : JobRow} (member : row ∈ queuedRows after) :
    row ∈ ⟨job, receipt⟩ ::
      (queuedRows before).filter fun old => ¬ Supersedable before job old := by
  obtain ⟨found, queued⟩ := mem_queuedRows.mp member
  by_cases own : row.key = job.key
  · rw [own, show after.jobs.lookup job.key = some ⟨job, receipt⟩ from admission.stored,
      Option.some.injEq] at found
    rw [← found]
    exact List.mem_cons_self
  · have apart : ∀ old, before.jobs.lookup row.key = some old → ¬ Supersedable before job old := by
      intro old oldFound supersedable
      obtain ⟨updated, stored, superseded⟩ :=
        admission.replaced accepted old (Table.mem_of_lookup oldFound) supersedable
      have oldKey : old.key = row.key := Table.key_of_lookup oldFound
      rw [Ledger.Stored, show old.job.key = row.key from oldKey, found, Option.some.injEq] at stored
      rw [stored] at queued
      rw [show updated.state = .queued from queued] at superseded
      contradiction
    rw [admission.others row.key own fun old oldFound _ => apart old oldFound] at found
    apply List.mem_cons_of_mem
    simp only [List.mem_filter, decide_eq_true_eq]
    exact ⟨mem_queuedRows.mpr ⟨found, queued⟩, apart row found⟩

theorem Admission.queue_bounded (admission : Admission before memory job receipt after)
    (bounded : (queuedRows before).length ≤ memory.config.maxQueue) :
    (queuedRows after).length ≤ memory.config.maxQueue := by
  rcases admission.decision with ⟨accepted, admissible⟩ | ⟨rejected, -⟩
  · have within := ((nodup_queuedRows after).subperm fun _ =>
      admission.queued_of_accepted accepted).length_le
    have room := admissible.queue
    have split := List.length_eq_length_filter_add (l := queuedRows before)
      fun old => decide (Supersedable before job old)
    rw [List.countP_eq_length_filter] at room
    simp only [List.length_cons, decide_not] at within
    omega
  · apply (queuedRows_length_le _).trans bounded
    intro key row found queued
    rw [← admission.others_of_rejected rejected, found]
    rintro rfl
    rw [show after.jobs.lookup job.key = some ⟨job, receipt⟩ from admission.stored,
      Option.some.injEq] at found
    rw [← found, show (JobRow.mk job receipt).receipt.state = .rejected from rejected] at queued
    contradiction

theorem Submitted.queue_bounded (submitted : Submitted before memory job after)
    (bounded : (queuedRows before).length ≤ memory.config.maxQueue) :
    (queuedRows after).length ≤ memory.config.maxQueue := by
  rcases submitted with ⟨-, -, receipt, admission⟩ | ⟨rfl, -⟩
  · exact admission.queue_bounded bounded
  · exact bounded

theorem Submitted.jobs_length (submitted : Submitted before memory job after) :
    after.jobs.rows.length ≤ before.jobs.rows.length + 1 := by
  rcases submitted with ⟨-, -, receipt, admission⟩ | ⟨rfl, -⟩
  · exact admission.jobs_length
  · exact Nat.le_succ _

end Admitted

/-! ## A full journal and a rejected job -/

theorem readRows_length {rows : List JobRow} {entries : List (Job × Receipt)}
    (read : Store.readRows rows = .ok entries) : entries.length = rows.length := by
  induction rows generalizing entries with
  | nil =>
      obtain rfl : [] = entries := by simpa [Store.readRows] using read
      rfl
  | cons row rows ih =>
      simp only [Store.readRows] at read
      split at read
      · contradiction
      · split at read
        · contradiction
        · rename_i rest restRead
          rw [← Except.ok.inj read, List.length_cons, List.length_cons, ih restRead]

section Submit

variable {lifetime : Lifetime} {self : Coordinator} {ledger : Ledger}

/-- A full journal refuses every new job. -/
theorem wp_submit_full (running : Running lifetime ledger self)
    (full : self.config.maxJobs ≤ ledger.jobs.rows.length) (job : Job) :
    wp (Runtime.submit job.toJobFields) (fun _ _ => True) (fun _ after _ => after = ledger)
      (fun _ after _ => after = ledger) ledger self := by
  simp only [Runtime.submit, wp_bind, wp_readVolatile, job.validate_toJobFields]
  rw [wp_ite]
  split
  · exact (wp_raise _).mpr rfl
  rename_i open_
  simp only [not_or, not_not] at open_
  simp only [wp_bind, wp_readDurable]
  split
  · simp only [Runtime.submitNew, wp_bind, wp_readVolatile]
    rw [wp_ite]
    split
    · exact (wp_raise _).mpr rfl
    rw [wp_bind, wp_jobs_iff]
    cases storedRead : Store.readRows (Store.selectJobs ledger job.tenant []) with
    | error exception => trivial
    | ok stored =>
        have all : Store.selectJobs ledger job.tenant [] = ledger.jobs.rows := by
          apply List.filter_eq_self.mpr
          intro row member
          simp [open_.2, running.row_tenant (Table.lookup_of_mem member)]
        have length := readRows_length storedRead
        rw [all] at length
        simp only [wp_ite, wp_raise]
        rw [if_pos (by omega)]
        trivial
  · rename_i row found
    simp only [wp_bind, wp_ofExcept, Store.readRow]
    cases row.receipt.reparse with
    | none => trivial
    | some receipt =>
        simp only [wp_ite, wp_raise, wp_pure]
        split <;> trivial

/-- A submission that answers with a rejection touches no other job. -/
theorem wp_submit_rejected (running : Running lifetime ledger self) (job : Job) :
    wp (Runtime.submit job.toJobFields) (Commit (.submission (self.clock.nowNs self.reads)))
      (fun receipt after _ => receipt.state = .rejected →
        ∀ key, key ≠ job.key → after.jobs.lookup key = ledger.jobs.lookup key)
      (fun _ _ _ => True) ledger self := by
  simp only [Runtime.submit, wp_bind, wp_readVolatile, job.validate_toJobFields]
  rw [wp_ite]
  split
  · exact (wp_raise _).mpr trivial
  rename_i open_
  simp only [not_or, not_not] at open_
  simp only [wp_bind, wp_readDurable]
  split
  · rename_i absent
    apply wp_post (wp_submitNew running open_.2 absent)
    · intro receipt after _ admitted rejected key other
      exact admitted.2.others_of_rejected rejected other
    · exact fun _ _ _ _ => trivial
  · rename_i row found
    simp only [wp_bind, wp_ofExcept, Store.readRow]
    cases row.receipt.reparse with
    | none => trivial
    | some receipt =>
        simp only [wp_ite, wp_raise, wp_pure]
        split
        · trivial
        · exact fun _ _ _ => trivial

end Submit

/-! ## Whole runs -/

/-- What a program does is done whether or not its result is kept. -/
theorem Action.quietly_durable {α : Type} (program : RuntimeProgram α) (ledger : Ledger)
    (self : Coordinator) :
    (Action.quietly program ledger self).durable ledger =
      (program ledger self).durable ledger := by
  simp only [Action.quietly, bind, Program.bind]
  split
  · rfl
  · simp [pure, Program.pure, Outcome.durable]

namespace Campaign

variable {campaign : Campaign}

/-- Fields that no job has leave the journal alone. -/
theorem submit_invalid {fields : JobFields} {text : String}
    (invalid : fields.validate = .error text) :
    (campaign.step (.act (.submit fields))).1.ledger = campaign.ledger := by
  cases live : campaign.live with
  | none => simp [step, live]
  | some self =>
      simp [step, live, Action.program, Action.quietly, Runtime.submit, invalid, bind,
        Program.bind, readVolatile, raise, Outcome.durable]

/-- A step other than a submission is committed by someone else. -/
theorem Sound.act_chain (sound : campaign.Sound) {self : Coordinator}
    (live : campaign.live = some self) (action : Action) :
    List.IsChain (Commit (action.author .free self))
      (campaign.ledger :: (campaign.step (.act action)).2) := by
  have chain := sound.chain (.act action)
  simpa only [CampaignStep.author, live] using chain

/-- The live coordinator's queue is within its bound. -/
def QueueBounded (campaign : Campaign) : Prop :=
  ∀ self ∈ campaign.live, (queuedRows campaign.ledger).length ≤ self.config.maxQueue

theorem QueueBounded.act (sound : campaign.Sound) {self : Coordinator}
    (live : campaign.live = some self)
    (bounded : (queuedRows campaign.ledger).length ≤ self.config.maxQueue) (action : Action) :
    (queuedRows (campaign.step (.act action)).1.ledger).length ≤ self.config.maxQueue := by
  by_cases submits : ∃ fields, action = .submit fields
  · obtain ⟨fields, rfl⟩ := submits
    cases validEq : fields.validate with
    | error text =>
        rw [submit_invalid validEq]
        exact bounded
    | ok job =>
        rw [JobFields.validate_ok validEq]
        exact (sound.submitted live job).queue_bounded bounded
  · have others : ∀ fields, action ≠ .submit fields := fun fields same => submits ⟨fields, same⟩
    apply (queuedRows_length_le _).trans bounded
    rw [step_ledger]
    exact queued_of_chain (sound.act_chain live action) (Action.author_ne_submission others) _
      (last_mem _ _)

theorem QueueBounded.step (bounded : campaign.QueueBounded) (sound : campaign.Sound)
    (label : CampaignStep) : (campaign.step label).1.QueueBounded := by
  intro next nextLive
  rcases sound.live_step label nextLive with ⟨self, live, config, -⟩ | ⟨-, quiet⟩
  · rw [config]
    have before := bounded self live
    rw [Option.mem_def] at live
    cases label with
    | act action => exact QueueBounded.act sound live before action
    | crash action count => simp [Campaign.step, live] at nextLive
    | _ =>
        simp only [Campaign.step, live]
        exact before
  · have empty : queuedRows (campaign.step label).1.ledger = [] := by
      apply List.filter_eq_nil_iff.mpr
      intro row member queued
      have ended := quiet.rows row.key row (Table.lookup_of_mem member)
      rw [of_decide_eq_true queued] at ended
      contradiction
    simp [empty]

theorem queueBounded_run (caps : BudgetCaps) (steps : List CampaignStep) :
    ((fresh caps).run steps).QueueBounded := by
  have both : Sound ((fresh caps).run steps) ∧ QueueBounded ((fresh caps).run steps) :=
    runSteps_invariant (fun campaign => Sound campaign ∧ QueueBounded campaign)
      (fun _ label _ holds => ⟨holds.1.step label, holds.2.step holds.1 label⟩)
      (stepsMeet_true _ _) ⟨sound_fresh caps, by simp [QueueBounded, fresh]⟩
  exact both.2

/-- A step adds a job only below `max_jobs`. -/
theorem Sound.act_jobs_length (sound : campaign.Sound) {self : Coordinator}
    (live : campaign.live = some self) (action : Action) :
    (campaign.step (.act action)).1.ledger.jobs.rows.length ≤
      max campaign.ledger.jobs.rows.length self.config.maxJobs := by
  by_cases submits : ∃ fields, action = .submit fields
  · obtain ⟨fields, rfl⟩ := submits
    cases validEq : fields.validate with
    | error text =>
        rw [submit_invalid validEq]
        exact le_max_left _ _
    | ok job =>
        rw [JobFields.validate_ok validEq]
        by_cases full : self.config.maxJobs ≤ campaign.ledger.jobs.rows.length
        · have unchanged : (campaign.step (.act (.submit job.toJobFields))).1.ledger =
              campaign.ledger := by
            have meets := wp_submit_full (sound.live self live) full job
            simp only [Campaign.step, live]
            apply durable_of_wp (fun after => after = campaign.ledger)
            simp only [Action.program, Action.quietly, wp_bind]
            exact wp_post meets (fun _ _ _ same => (wp_pure _).mpr same) (fun _ _ _ same => same)
          rw [unchanged]
          exact le_max_left _ _
        · have added := (sound.submitted live job).jobs_length
          omega
  · have others : ∀ fields, action ≠ .submit fields := fun fields same => submits ⟨fields, same⟩
    apply le_trans _ (le_max_left _ _)
    rw [step_ledger]
    exact jobs_length_of_chain (sound.act_chain live action) (Action.author_ne_submission others) _
      (last_mem _ _)

/-- The coordinator of this configuration still lives, and the journal has not
grown beyond its bound. -/
def JobsBounded (config : RuntimeConfig) (first : Nat) (campaign : Campaign) : Prop :=
  ∀ next ∈ campaign.live, next.config = config ∧
    campaign.ledger.jobs.rows.length ≤ max first config.maxJobs

theorem JobsBounded.step {config : RuntimeConfig} {first : Nat}
    (bounded : campaign.JobsBounded config first) (sound : campaign.Sound) {label : CampaignStep}
    (unstarted : ∀ args, label ≠ .start args) :
    (campaign.step label).1.JobsBounded config first := by
  intro next nextLive
  cases live : campaign.live with
  | none =>
      cases label with
      | start args => exact absurd rfl (unstarted args)
      | _ => simp [Campaign.step, live] at nextLive
  | some self =>
      obtain ⟨same, length⟩ := bounded self live
      rcases sound.live_step label nextLive with ⟨old, oldLive, config, -⟩ | ⟨gone, -⟩
      · obtain rfl : self = old := Option.some.inj (live.symm.trans oldLive)
        refine ⟨config.trans same, ?_⟩
        cases label with
        | act action =>
            have grown := sound.act_jobs_length live action
            rw [same] at grown
            omega
        | crash action count => simp [Campaign.step, live] at nextLive
        | _ =>
            simp only [Campaign.step, live]
            exact length
      · rw [live] at gone
        contradiction

theorem Sound.jobsBounded_run (sound : campaign.Sound) {self : Coordinator}
    (live : campaign.live = some self) {steps : List CampaignStep}
    (oneLifetime : ∀ args, .start args ∉ steps) :
    (campaign.run steps).JobsBounded self.config campaign.ledger.jobs.rows.length := by
  have unstarted : StepsMeet Campaign.step (fun _ label => ∀ args, label ≠ .start args) campaign
      steps := by
    apply stepsMeet_of_forall
    rintro label member _ args rfl
    exact oneLifetime args member
  have both : Sound (campaign.run steps) ∧
      JobsBounded self.config campaign.ledger.jobs.rows.length (campaign.run steps) := by
    apply runSteps_invariant (fun later =>
      Sound later ∧ JobsBounded self.config campaign.ledger.jobs.rows.length later) _ unstarted
    · refine ⟨sound, fun next nextLive => ?_⟩
      obtain rfl : self = next := Option.some.inj (live.symm.trans nextLive)
      exact ⟨rfl, le_max_left _ _⟩
    · exact fun _ label unstarted holds =>
        ⟨holds.1.step label, holds.2.step holds.1 unstarted⟩
  exact both.2

end Campaign

/-- In every state of one coordinator's lifetime the queue is within `max_queue`,
the journal has not grown beyond `max_jobs`, and a submission that answers with
a rejection leaves every other job as it is. -/
theorem queue_bounds_hold (caps : BudgetCaps) (before lifetime : List CampaignStep)
    (self : Coordinator) (live : ((Campaign.fresh caps).run before).live = some self)
    (oneLifetime : ∀ args, .start args ∉ lifetime) :
    let opened := (Campaign.fresh caps).run before
    let campaign := opened.run lifetime
    ∀ next ∈ campaign.live, next.config = self.config ∧
      (queuedRows campaign.ledger).length ≤ self.config.maxQueue ∧
        campaign.ledger.jobs.rows.length ≤
          max opened.ledger.jobs.rows.length self.config.maxJobs ∧
          ∀ fields receipt, (Runtime.submit fields campaign.ledger next).value = .ok receipt →
            receipt.state = .rejected → ∀ key, key ≠ (fields.tenant, fields.id) →
              (campaign.step (.act (.submit fields))).1.ledger.jobs.lookup key =
                campaign.ledger.jobs.lookup key := by
  intro opened campaign next nextLive
  have sound : campaign.Sound := by
    have whole := Campaign.sound_run caps (before ++ lifetime)
    rwa [Campaign.run_append] at whole
  obtain ⟨config, length⟩ := (Campaign.sound_run caps before).jobsBounded_run live oneLifetime
    next nextLive
  refine ⟨config, ?_, length, ?_⟩
  · have bounded : campaign.QueueBounded := by
      have whole := Campaign.queueBounded_run caps (before ++ lifetime)
      rwa [Campaign.run_append] at whole
    rw [← config]
    exact bounded next nextLive
  · intro fields receipt answered rejected key other
    rw [Option.mem_def] at nextLive
    cases validEq : fields.validate with
    | error text => rw [Campaign.submit_invalid validEq]
    | ok job =>
        obtain rfl := JobFields.validate_ok validEq
        have ended := (wp_submit_rejected (sound.live next nextLive) job).2
        rw [answered] at ended
        have same := ended rejected key other
        simpa only [Campaign.step, nextLive, Action.program, Action.quietly_durable] using same

namespace Sample

/-- A queue with room for one job. -/
def narrowConfig : RuntimeConfig := { config with maxQueue := 1, queueBounded := by decide }

def narrowOpening : List CampaignStep :=
  [.start ⟨narrowConfig, ⟨firstClock, fun _ => 20⟩, false, []⟩,
    .act (.openSession "drone" "inspect")]

/-- A newer job of the group of the older one. -/
def latest : JobFields :=
  { older.toJobFields with id := ⟨"latest", by decide⟩, snapshotNs := 11 }

/-- The newer job comes while the older one fills the queue. -/
def replacingFull : List CampaignStep :=
  [.act (.submit older.toJobFields), .act (.submit latest)]

def narrowOpened : Campaign := (Campaign.fresh narrowConfig.caps).run narrowOpening

end Sample

/-- The newer job of a group takes the only place in the queue, and a third job is
turned away without touching it. -/
theorem queue_bounds_hold_opening :
    let campaign := Sample.narrowOpened.run Sample.replacingFull
    (queuedRows campaign.ledger).map (fun row => row.job.id) = [Sample.latest.id] ∧
      ∃ next ∈ campaign.live,
        (queuedRows campaign.ledger).length ≤ Sample.narrowConfig.maxQueue ∧
          campaign.ledger.jobs.rows.length ≤
            max Sample.narrowOpened.ledger.jobs.rows.length Sample.narrowConfig.maxJobs ∧
            ∀ key, key ≠ (Sample.tenant, Sample.job) →
              (campaign.step (.act (.submit Sample.fields))).1.ledger.jobs.lookup key =
                campaign.ledger.jobs.lookup key := by
  obtain ⟨self, live⟩ := Option.isSome_iff_exists.mp
    (by decide +kernel : Sample.narrowOpened.live.isSome = true)
  have config : self.config = Sample.narrowConfig := by
    have same : Sample.narrowOpened.live.map Coordinator.config = some Sample.narrowConfig := by
      decide +kernel
    rw [live] at same
    exact Option.some.inj same
  have turnedAway : ∃ next ∈ (Sample.narrowOpened.run Sample.replacingFull).live,
      ((Runtime.submit Sample.fields (Sample.narrowOpened.run Sample.replacingFull).ledger
        next).value.toOption.any fun receipt => receipt.state = .rejected) = true := by
    decide +kernel
  obtain ⟨next, nextLive, answer⟩ := turnedAway
  have bounds := queue_bounds_hold Sample.narrowConfig.caps Sample.narrowOpening
    Sample.replacingFull self live (by simp [Sample.replacingFull])
  rw [← Sample.narrowOpened] at bounds
  dsimp only at bounds ⊢
  obtain ⟨-, queue, journal, apart⟩ := bounds next nextLive
  rw [config] at queue journal
  refine ⟨by decide +kernel, next, nextLive, queue, journal, ?_⟩
  cases answered : Runtime.submit Sample.fields
      (Sample.narrowOpened.run Sample.replacingFull).ledger next |>.value with
  | error exception =>
      rw [answered] at answer
      contradiction
  | ok receipt =>
      rw [answered] at answer
      exact apart Sample.fields receipt answered (of_decide_eq_true answer)

end AgminaRuntime
