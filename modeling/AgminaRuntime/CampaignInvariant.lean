import AgminaRuntime.Campaign
import AgminaRuntime.OperatorRules
import AgminaRuntime.RecoveryRules
import AgminaRuntime.SubmissionRules
import AgminaRuntime.TaskRules
import AgminaRuntime.TickRules

/-!
# The invariant of a campaign

Every step of a campaign keeps it, whatever crashes and restarts came before:
the ledger is sound, each job has been sent at most once and only with an
attempt, and a live coordinator agrees with the ledger.
-/

namespace AgminaRuntime

open Durable Durable.Program Keyed

/-! ## One step of a live coordinator -/

/-- What is known of the steps of a run besides their order: whether tasks keep
the states of receipts and write what can be read back, and whether a recovery
meets settled attempts of running jobs. -/
structure Discipline where
  orderly : Bool
  legible : Bool
  clean : Bool

/-- Nothing is known. -/
def Discipline.free : Discipline := ⟨false, false, false⟩

namespace Action

/-- Who makes the commits of a step. -/
def author (discipline : Discipline) (self : Coordinator) : Action → Author
  | submit _ => .submission (self.clock.nowNs self.reads)
  | heartbeat sid _ _ => .heartbeat sid
  | startTask _ => .task discipline.orderly discipline.legible
  | finishTask _ _ => .task discipline.orderly discipline.legible
  | reconcile _ _ _ => .operator none
  | releasePool pool _ _ => .operator (some pool)
  | _ => .coordinator self.config self.cache.data

/-- The job whose task runs its pre-send check. -/
def checked : Action → Option Name
  | startTask jobId => some jobId
  | _ => none

/-- A pre-send check would put no other state in the place of a terminal one. -/
def KeepsState (action : Action) (ledger : Ledger) (self : Coordinator) : Prop :=
  ∀ jobId ∈ action.checked, ∀ task ∈ self.task? jobId .created,
    Runtime.KeepsState ledger self task.job

instance (action : Action) (ledger : Ledger) (self : Coordinator) :
    Decidable (action.KeepsState ledger self) :=
  inferInstanceAs (Decidable (∀ jobId ∈ action.checked, ∀ task ∈ self.task? jobId .created,
    Runtime.KeepsState ledger self task.job))

/-- The reply of a step that finishes a task leaves a receipt that can be read
back. -/
def Legible (ledger : Ledger) (self : Coordinator) : Action → Prop
  | finishTask jobId reply =>
      ∀ task ∈ self.task? jobId .awaiting, Runtime.LegibleReply ledger self task.job reply
  | _ => True

instance (ledger : Ledger) (self : Coordinator) :
    ∀ action, Decidable (Action.Legible ledger self action)
  | finishTask jobId reply =>
      inferInstanceAs (Decidable (∀ task ∈ self.task? jobId .awaiting,
        Runtime.LegibleReply ledger self task.job reply))
  | openSession _ _ | advanceSession _ _ _ _ | heartbeat _ _ _ | submit _ | tick | startTask _
  | cancel _ | consume _ _ | recordOutcome _ _ _ _ | beginClose | finishClose | reconcile _ _ _
  | releasePool _ _ _ => .isTrue trivial

end Action

/-- The lifetime of a coordinator from now on. -/
def Coordinator.lifetime (self : Coordinator) (called : List (Name × Name)) : Lifetime :=
  ⟨self.config, self.clock, self.reads, called, self.cache.data⟩

/-- The lifetime after a step has shown something. -/
def Lifetime.see (lifetime : Lifetime) : Visible → Lifetime
  | .inferred task => lifetime.call task.job
  | _ => lifetime

/-- What a step shows is so. -/
def Shows (lifetime : Lifetime) (before : Ledger) (self : Coordinator) :
    Visible → Ledger → Prop
  | .inferred task, _ => task ∈ self.running ∧ task.job.key ∉ lifetime.called ∧
      Runtime.preSendReason before self task.job = none
  | .consumed jobId consumer receipt, after =>
      Claims before self jobId consumer.text receipt after
  | _, _ => True

/-- What a step of a live coordinator leaves. -/
structure Steps (lifetime : Lifetime) (before : Ledger) (start : Coordinator) (action : Action)
    (visible : Visible) (after : Ledger) (memory : Coordinator) : Prop where
  running : ∃ computed, (∀ entry ∈ computed, ∃ jobId result, ∃ task ∈ start.task? jobId .awaiting,
      action = .finishTask jobId (.prediction result) ∧
        Computes before after task result entry) ∧
    Running ((lifetime.see visible).store computed) after memory
  shows : Shows lifetime before start visible after
  quarantined : ∀ pool ∈ action.unconfirmed start, pool ∈ after.quarantined

/-- An exception that leaves a step either ends the process or leaves the
coordinator as it should be. -/
def Fails (lifetime : Lifetime) (start : Coordinator) (action : Action) (exception : PyExc)
    (after : Ledger) (memory : Coordinator) : Prop :=
  exception ≠ .integrityError ∧
    (exception.endsProcess = false → Running lifetime after memory ∧ action.unconfirmed start = [])

variable {lifetime : Lifetime} {ledger : Ledger} {self : Coordinator}

/-- A step that leaves no result in the cache. -/
theorem Steps.of_running {action : Action} {visible : Visible} {after : Ledger}
    {memory : Coordinator} (running : Running (lifetime.see visible) after memory)
    (shows : Shows lifetime ledger self visible after)
    (quarantined : ∀ pool ∈ action.unconfirmed self, pool ∈ after.quarantined) :
    Steps lifetime ledger self action visible after memory :=
  ⟨⟨[], by simp, running.store []⟩, shows, quarantined⟩

theorem Refused.fails {action : Action} {exception : PyExc} {after : Ledger}
    {memory : Coordinator} (refused : Refused lifetime exception after memory)
    (silent : action.unconfirmed self = []) : Fails lifetime self action exception after memory :=
  ⟨refused.2.1, fun _ => ⟨refused.1, silent⟩⟩

/-- An operation that shows nothing. -/
theorem wp_quietly {α : Type} {program : RuntimeProgram α} {guarantee : Ledger → Ledger → Prop}
    (action : Action) (silent : action.unconfirmed self = [])
    (meets : wp program guarantee (fun _ => Running lifetime) (Refused lifetime) ledger self) :
    wp (Action.quietly program) guarantee (Steps lifetime ledger self action)
      (Fails lifetime self action) ledger self := by
  simp only [Action.quietly, wp_bind]
  refine wp_post meets ?_ (fun _ _ _ refused => refused.fails silent)
  intro value after memory running
  exact (wp_pure _).mpr (.of_running running trivial (by simp [silent]))

theorem Coordinator.task?_some {jobId : Name} {phase : Phase} {task : Task}
    (found : self.task? jobId phase = some task) :
    task ∈ self.running ∧ task.job.id = jobId ∧ task.phase = phase := by
  have named := List.find?_some found
  simp only [decide_eq_true_eq] at named
  exact ⟨List.mem_of_find?_eq_some found, named⟩

theorem wp_startTask (running : Running lifetime ledger self) (jobId : Name)
    {orderly legible : Bool}
    (keeps : orderly = true → (Action.startTask jobId).KeepsState ledger self) :
    wp (Action.startTask jobId).program (Commit (.task orderly legible))
      (Steps lifetime ledger self (.startTask jobId)) (Fails lifetime self (.startTask jobId))
      ledger self := by
  simp only [Action.program, wp_bind, wp_readVolatile]
  split
  · exact (wp_pure _).mpr (.of_running running trivial (by simp [Action.unconfirmed]))
  · rename_i task found
    obtain ⟨member, -, created⟩ := Coordinator.task?_some found
    simp only [wp_bind]
    refine wp_post (wp_runStart running member fun isOrderly => keeps isOrderly jobId rfl task found) ?_
      (fun _ _ _ failed => failed)
    intro sent after memory checked
    refine (wp_pure _).mpr ?_
    cases sent with
    | false => exact .of_running checked trivial (by simp [Action.unconfirmed])
    | true =>
        exact .of_running checked.1
          ⟨member, running.uncalled task member created, checked.2.2⟩
          (by simp [Action.unconfirmed])

theorem wp_finishTask (running : Running lifetime ledger self) (jobId : Name)
    (reply : BackendReply) {orderly legible : Bool}
    (legibly : legible = true → (Action.finishTask jobId reply).Legible ledger self) :
    wp (Action.finishTask jobId reply).program (Commit (.task orderly legible))
      (Steps lifetime ledger self (.finishTask jobId reply))
      (Fails lifetime self (.finishTask jobId reply)) ledger self := by
  simp only [Action.program, wp_bind, wp_readVolatile]
  split
  · rename_i missing
    exact (wp_pure _).mpr (.of_running running trivial (by simp [Action.unconfirmed, missing]))
  · rename_i task found
    obtain ⟨member, -⟩ := Coordinator.task?_some found
    simp only [Action.quietly, wp_bind]
    refine wp_post (wp_runFinish running member reply
      fun isLegible => legibly isLegible task found) ?_ ?_
    · rintro _ after memory ⟨⟨computed, computes, kept⟩, quarantined⟩
      refine (wp_pure _).mpr ⟨⟨computed, ?_, kept⟩, trivial, ?_⟩
      · intro entry entryMember
        obtain ⟨result, rfl, source⟩ := computes entry entryMember
        exact ⟨jobId, result, task, found, rfl, source⟩
      intro pool unconfirmed
      simp only [Action.unconfirmed, found] at unconfirmed
      split at unconfirmed
      · simp at unconfirmed
      · rename_i notConfirmed
        rw [List.mem_singleton.mp unconfirmed]
        exact quarantined (by simpa using notConfirmed)
    · intro exception after memory ends
      refine ⟨?_, fun survives => ?_⟩
      · rintro rfl
        contradiction
      · rw [ends] at survives
        contradiction

/-- An import of charges under a live coordinator names no attempt in flight. -/
theorem Running.reconcile (running : Running lifetime ledger self) {tenant : Name} {nowNs : Ns}
    {entries : List (PyValue × PyValue × PyValue)} (apart : self.namesInFlight entries = false)
    {charges : List Charge} (checked : Store.checkEntries entries [] = .ok charges)
    {after : Ledger} (applied : Store.applyCharges tenant nowNs charges ledger = .ok after) :
    Running lifetime after self := by
  refine ⟨running.toLive.reconcile applied ?_, ?_⟩
  · intro task member charge charged same
    obtain ⟨entry, entryMember, named⟩ := checkEntries_named checked charge charged
    have named : self.namesInFlight entries = true := by
      refine List.any_eq_true.mpr ⟨task, member, List.any_eq_true.mpr ⟨entry, entryMember, ?_⟩⟩
      simpa [← same] using named
    rw [apart] at named
    contradiction
  · obtain ⟨attempts, events, rfl⟩ := Store.applyCharges_frame applied
    exact running.current

theorem ImportRefused.fails {action : Action} {exception : PyExc}
    (refused : ImportRefused exception) (running : Running lifetime ledger self)
    (silent : action.unconfirmed self = []) :
    Fails lifetime self action exception ledger self := by
  rcases refused with rfl | rfl | ⟨text, rfl⟩ <;> exact ⟨by simp, fun _ => ⟨running, silent⟩⟩

theorem Running.releasePool (running : Running lifetime ledger self) (pool : Name) :
    Running lifetime (ledger.releaseQuarantine pool) self :=
  ⟨running.toLive.of_tables (.release pool : Commit (.operator (some pool)) _ _) rfl rfl rfl, running.current⟩

/-- Every step of a live coordinator. -/
theorem wp_action {called : List (Name × Name)}
    (running : Running (self.lifetime called) ledger self) (action : Action)
    {discipline : Discipline}
    (keeps : discipline.orderly = true → action.KeepsState ledger self)
    (legibly : discipline.legible = true → action.Legible ledger self) :
    wp action.program (Commit (action.author discipline self))
      (Steps (self.lifetime called) ledger self action)
      (Fails (self.lifetime called) self action) ledger self := by
  cases action with
  | openSession sessionId taskRevision =>
      exact wp_quietly _ rfl (wp_post (wp_openSession running sessionId taskRevision)
        (fun _ _ _ opened => opened.1) (fun _ _ _ refused => refused))
  | advanceSession sid expectedEpoch taskRevision close =>
      exact wp_quietly _ rfl (wp_post (wp_advanceSession running sid expectedEpoch taskRevision close)
        (fun _ _ _ advanced => advanced.1) (fun _ _ _ refused => refused))
  | heartbeat sid expectedEpoch bufferUntilNs =>
      exact wp_quietly _ rfl (wp_heartbeat running sid expectedEpoch bufferUntilNs)
  | submit fields => exact wp_quietly _ rfl (wp_submit running fields)
  | tick => exact wp_quietly _ rfl (wp_tick running)
  | startTask jobId => exact wp_startTask running jobId keeps
  | finishTask jobId reply => exact wp_finishTask running jobId reply legibly
  | cancel jobId => exact wp_quietly _ rfl (wp_cancel running jobId)
  | consume jobId consumerId =>
      simp only [Action.program, wp_bind]
      refine wp_post (wp_consume running jobId consumerId) ?_ (fun _ _ _ refused => refused.fails rfl)
      rintro receipt after memory ⟨kept, claims⟩
      split
      · exact (wp_pure _).mpr (.of_running kept trivial (by simp [Action.unconfirmed]))
      · rename_i consumer consumerEq
        refine (wp_pure _).mpr (.of_running kept ?_ (by simp [Action.unconfirmed]))
        have named := claims.consumer
        rw [consumerEq, Option.map_some, Option.some.injEq] at named
        show Claims ledger self jobId consumer.text receipt after
        rw [named]
        exact claims
  | recordOutcome jobId consumerId outcome evidenceRef =>
      exact wp_quietly _ rfl (wp_recordOutcome running jobId consumerId outcome evidenceRef)
  | beginClose => exact wp_quietly _ rfl (wp_beginClose running)
  | finishClose =>
      simp only [Action.program, wp_bind, wp_readVolatile]
      rw [wp_ite]
      split
      · simp only [wp_bind]
        refine wp_post (wp_finishClose running) ?_ (fun _ _ _ refused => refused.fails rfl)
        intro _ after memory kept
        exact (wp_pure _).mpr (.of_running kept trivial (by simp [Action.unconfirmed]))
      · exact (wp_pure _).mpr (.of_running running trivial (by simp [Action.unconfirmed]))
  | reconcile tenant entries nowNs =>
      simp only [Action.program, wp_bind, wp_readVolatile]
      rw [wp_ite]
      split
      · exact (wp_pure _).mpr (.of_running running trivial (by simp [Action.unconfirmed]))
      · rename_i apart
        simp only [Action.quietly, wp_bind]
        refine wp_reconcileMany tenant entries nowNs ?_ ?_
        · intro charges after checked applied
          exact (wp_pure _).mpr (.of_running
            (running.reconcile (by simpa using apart) checked applied) trivial
            (by simp [Action.unconfirmed]))
        · exact fun exception refused => refused.fails running rfl
  | releasePool pool evidence nowNs =>
      simp only [Action.program, Action.quietly, wp_bind]
      refine wp_releasePool pool evidence nowNs ?_ ?_
      · exact (wp_pure _).mpr (.of_running ((running.releasePool pool).note _ _) trivial
          (by simp [Action.unconfirmed]))
      · exact ⟨by simp, fun _ => ⟨running, rfl⟩⟩

/-! ## One step of a campaign -/

theorem sound_of_chain {who : Author} {commits : List Ledger}
    (chain : List.IsChain (Commit who) (ledger :: commits)) (sound : ledger.Sound) :
    ∀ state ∈ ledger :: commits, state.Sound :=
  isChain_preserves Ledger.Sound (fun _ _ commit sound => commit.sound sound) chain sound

theorem attempted_of_chain {who : Author} {commits : List Ledger} {key : Name × Name}
    (chain : List.IsChain (Commit who) (ledger :: commits))
    (attempted : (ledger.attempts.lookup key).isSome = true) :
    ∀ state ∈ ledger :: commits, (state.attempts.lookup key).isSome = true := by
  refine isChain_preserves (fun state => (state.attempts.lookup key).isSome = true) ?_ chain
    attempted
  intro before after commit attempted
  obtain ⟨attempt, found⟩ := Option.isSome_iff_exists.mp attempted
  obtain ⟨next, nextFound, -⟩ := commit.attempt_kept found
  rw [nextFound]
  rfl

/-- A lifetime may be read at any later clock reading. -/
theorem Running.renew (running : Running lifetime ledger self) {called : List (Name × Name)}
    (same : lifetime.called = called) :
    Running (self.lifetime called) ledger self := by
  subst same
  have ttl : self.cache.ttlNs = self.config.cacheTtlNs := by
    rw [running.cacheTtl, running.config]
  exact ⟨{ running.toLive with
    config := rfl
    clock := rfl
    reads := le_rfl
    cached := fun _ member => member
    cacheTtl := ttl }, running.current⟩

theorem Lifetime.called_see (lifetime : Lifetime) (visible : Visible) :
    (lifetime.see visible).called = lifetime.called ++ Campaign.called (.ok visible) := by
  cases visible <;> simp [Lifetime.see, Lifetime.call, Campaign.called]

theorem Lifetime.entries_see (lifetime : Lifetime) (visible : Visible) :
    (lifetime.see visible).entries = lifetime.entries := by
  cases visible <;> rfl

theorem Lifetime.config_see (lifetime : Lifetime) (visible : Visible) :
    (lifetime.see visible).config = lifetime.config := by
  cases visible <;> rfl

def Operation.author : Operation → Author
  | .releasePool pool _ _ => .operator (some pool)
  | _ => .operator none

theorem Action.author_ne_recovery (action : Action) (discipline : Discipline)
    (self : Coordinator) (clean : Bool) : action.author discipline self ≠ .recovery clean := by
  cases action <;> simp [Action.author]

theorem Operation.author_ne_recovery (operation : Operation) (clean : Bool) :
    operation.author ≠ .recovery clean := by
  cases operation <;> simp [Operation.author]

/-- Who makes the commits of a step. -/
def CampaignStep.author (discipline : Discipline) (campaign : Campaign) : CampaignStep → Author
  | .act action | .crash action _ =>
      match campaign.live with
      | none => .operator none
      | some self => action.author discipline self
  | .start _ | .crashStart _ _ => .recovery discipline.clean
  | .operate operation | .crashOperate operation _ => operation.author

/-- The author of a step is its coordinator, a recovery or an operator. -/
theorem CampaignStep.author_cases (label : CampaignStep) (discipline : Discipline)
    (campaign : Campaign) :
    (∃ self ∈ campaign.live, ∃ action, (label = .act action ∨ ∃ count, label = .crash action count) ∧
      label.author discipline campaign = action.author discipline self) ∨
      label.author discipline campaign = .recovery discipline.clean ∨
        ∃ released, label.author discipline campaign = .operator released := by
  have operates : ∀ operation : Operation, ∃ released, operation.author = .operator released := by
    intro operation
    cases operation with
    | releasePool pool _ _ => exact ⟨some pool, rfl⟩
    | _ => exact ⟨none, rfl⟩
  cases live : campaign.live with
  | none =>
      cases label with
      | act action => exact .inr (.inr ⟨none, by simp only [author, live]⟩)
      | crash action count => exact .inr (.inr ⟨none, by simp only [author, live]⟩)
      | start args => exact .inr (.inl rfl)
      | crashStart args count => exact .inr (.inl rfl)
      | operate operation => exact .inr (.inr (operates operation))
      | crashOperate operation count => exact .inr (.inr (operates operation))
  | some self =>
      cases label with
      | act action => exact .inl ⟨self, rfl, action, .inl rfl, by simp only [author, live]⟩
      | crash action count =>
          exact .inl ⟨self, rfl, action, .inr ⟨count, rfl⟩, by simp only [author, live]⟩
      | start args => exact .inr (.inl rfl)
      | crashStart args count => exact .inr (.inl rfl)
      | operate operation => exact .inr (.inr (operates operation))
      | crashOperate operation count => exact .inr (.inr (operates operation))

theorem CampaignStep.author_recovery {label : CampaignStep} {discipline : Discipline}
    {campaign : Campaign} {clean : Bool}
    (recovers : label.author discipline campaign = .recovery clean) : discipline.clean = clean := by
  rcases label.author_cases discipline campaign with
    ⟨self, -, action, -, author⟩ | recovery | ⟨released, operates⟩
  · rw [author] at recovers
    exact absurd recovers (action.author_ne_recovery discipline self clean)
  · rw [recovery] at recovers
    exact Author.recovery.inj recovers
  · rw [operates] at recovers
    contradiction

/-- A commit of a coordinator is made by the live one, with its own cache. -/
theorem CampaignStep.live_of_coordinator {campaign : Campaign} {label : CampaignStep}
    {discipline : Discipline} {config : RuntimeConfig} {entries : List CacheEntry}
    (coordinator : label.author discipline campaign = .coordinator config entries) :
    ∃ self, campaign.live = some self ∧ self.config = config ∧ self.cache.data = entries ∧
      ∃ action, (label = .act action ∨ ∃ count, label = .crash action count) ∧
        action.author discipline self = .coordinator config entries := by
  rcases label.author_cases discipline campaign with
    ⟨self, live, action, labelled, author⟩ | recovery | ⟨released, operates⟩
  · rw [author] at coordinator
    refine ⟨self, live, ?_, ?_, action, labelled, coordinator⟩
    · cases action <;> simp_all [Action.author]
    · cases action <;> simp_all [Action.author]
  · rw [recovery] at coordinator
    contradiction
  · rw [operates] at coordinator
    contradiction

/-- A step that runs a pre-send check puts no other state in the place of a
terminal one. -/
def CampaignStep.KeepsState (campaign : Campaign) : CampaignStep → Prop
  | .act action | .crash action _ =>
      ∀ self ∈ campaign.live, action.KeepsState campaign.ledger self
  | _ => True

/-- A step that finishes a task leaves a receipt that can be read back. -/
def CampaignStep.Legible (campaign : Campaign) : CampaignStep → Prop
  | .act action | .crash action _ =>
      ∀ self ∈ campaign.live, action.Legible campaign.ledger self
  | _ => True

/-- A recovery meets no settled attempt of a running job. -/
def CampaignStep.StartsSettled (campaign : Campaign) : CampaignStep → Prop
  | .start args | .crashStart args _ =>
      campaign.ledger.Accepts args.config → campaign.ledger.SettledEnded
  | _ => True

instance (campaign : Campaign) : ∀ label, Decidable (CampaignStep.KeepsState campaign label)
  | .act action | .crash action _ =>
      inferInstanceAs (Decidable (∀ self ∈ campaign.live, action.KeepsState campaign.ledger self))
  | .start _ | .crashStart _ _ | .operate _ | .crashOperate _ _ => .isTrue trivial

instance (campaign : Campaign) : ∀ label, Decidable (CampaignStep.Legible campaign label)
  | .act action | .crash action _ =>
      inferInstanceAs (Decidable (∀ self ∈ campaign.live, action.Legible campaign.ledger self))
  | .start _ | .crashStart _ _ | .operate _ | .crashOperate _ _ => .isTrue trivial

instance (campaign : Campaign) : ∀ label, Decidable (CampaignStep.StartsSettled campaign label)
  | .start args | .crashStart args _ =>
      inferInstanceAs (Decidable
        (campaign.ledger.Accepts args.config → campaign.ledger.SettledEnded))
  | .act _ | .crash _ _ | .operate _ | .crashOperate _ _ => .isTrue trivial

theorem wp_operation (operation : Operation) :
    wp operation.program (Commit operation.author) (fun _ _ _ => True) (fun _ _ _ => True)
      ledger () := by
  cases operation with
  | reconcile tenant entries nowNs =>
      exact wp_reconcileMany tenant entries nowNs (fun _ _ _ _ => trivial) (fun _ _ => trivial)
  | releasePool pool evidence nowNs => exact wp_releasePool pool evidence nowNs trivial trivial
  | extendBudget maxAttempts maxMicrousd approvalRef nowNs =>
      exact wp_extendBudget maxAttempts maxMicrousd approvalRef nowNs

/-- The commits of a start, whether or not the ledger accepts it. -/
theorem start_commits (sound : ledger.Sound) (args : StartArgs) {clean : Bool}
    (settled : clean = true → ledger.Accepts args.config → ledger.SettledEnded) :
    List.IsChain (Commit (.recovery clean))
      (ledger :: (Runtime.start ledger args.memory).commits) := by
  by_cases accepts : ledger.Accepts args.config
  · exact (wp_start sound accepts fun isClean => settled isClean accepts).1
  · refine (wp_start_refused accepts).1.imp fun _ _ impossible => ?_
    contradiction

namespace Campaign

/-- The invariant of a campaign. -/
structure Sound (campaign : Campaign) : Prop where
  ledger : campaign.ledger.Sound
  called : ∀ key ∈ campaign.calls, (campaign.ledger.attempts.lookup key).isSome = true
  once : campaign.calls.Nodup
  live : ∀ self ∈ campaign.live, Running (self.lifetime campaign.calls) campaign.ledger self

theorem sound_fresh (caps : BudgetCaps) : (fresh caps).Sound :=
  ⟨Ledger.sound_create caps, by simp [fresh], List.nodup_nil, by simp [fresh]⟩

variable {campaign : Campaign}

/-- What every step of a live coordinator meets. -/
theorem Sound.meets (sound : campaign.Sound) {self : Coordinator}
    (live : campaign.live = some self) (action : Action) :
    wp action.program (Commit (action.author .free self))
      (Steps (self.lifetime campaign.calls) campaign.ledger self action)
      (Fails (self.lifetime campaign.calls) self action) campaign.ledger self :=
  wp_action (sound.live self live) action (fun impossible => by contradiction)
    fun impossible => by contradiction

/-- What the submission of a job by a live coordinator leaves. -/
theorem Sound.submitted (sound : campaign.Sound) {self : Coordinator}
    (live : campaign.live = some self) (job : Job) :
    Submitted campaign.ledger self job
      (campaign.step (.act (.submit job.toJobFields))).1.ledger := by
  have meets := wp_submit_job (sound.live self live) job
  simp only [step, live]
  refine durable_of_wp (fun after => Submitted campaign.ledger self job after)
    (?_ : wp _ (Commit (.submission (self.clock.nowNs self.reads))) _ _ _ _)
  simp only [Action.program, Action.quietly, wp_bind]
  exact wp_post meets (fun _ _ _ kept => (wp_pure _).mpr kept.2)
    (fun _ _ _ failed => .inr failed.2)

/-- The ledger after a step is the last one it committed. -/
theorem step_ledger (campaign : Campaign) (label : CampaignStep) :
    (campaign.step label).1.ledger =
      (campaign.step label).2.getLast?.getD campaign.ledger := by
  cases label <;> simp only [step] <;> split <;> rfl

/-- The commits of a step are its author's. -/
theorem Sound.commits (sound : campaign.Sound) (label : CampaignStep) (discipline : Discipline)
    (keeps : discipline.orderly = true → label.KeepsState campaign)
    (legibly : discipline.legible = true → label.Legible campaign)
    (settled : discipline.clean = true → label.StartsSettled campaign) :
    List.IsChain (Commit (label.author discipline campaign))
      (campaign.ledger :: (campaign.step label).2) := by
  cases label with
  | act action =>
      simp only [step]
      split
      · exact .singleton _
      · rename_i self live
        simp only [CampaignStep.author, live]
        exact (wp_action (sound.live self live) action (fun isOrderly => keeps isOrderly self live)
          fun isLegible => legibly isLegible self live).1
  | crash action count =>
      simp only [step]
      split
      · exact .singleton _
      · rename_i self live
        simp only [CampaignStep.author, live]
        exact isChain_take (wp_action (sound.live self live) action
          (fun isOrderly => keeps isOrderly self live)
          fun isLegible => legibly isLegible self live).1 count
  | start args =>
      simp only [step]
      split
      · exact .singleton _
      · exact start_commits sound.ledger args settled
  | crashStart args count =>
      simp only [step]
      split
      · exact .singleton _
      · exact isChain_take (start_commits sound.ledger args settled) count
  | operate operation =>
      simp only [step]
      split
      · exact .singleton _
      · exact (wp_operation operation).1
  | crashOperate operation count =>
      simp only [step]
      split
      · exact .singleton _
      · exact isChain_take (wp_operation operation).1 count

/-- The commits of a step that is under no condition. -/
theorem Sound.chain (sound : campaign.Sound) (label : CampaignStep) :
    List.IsChain (Commit (label.author .free campaign))
      (campaign.ledger :: (campaign.step label).2) :=
  sound.commits label .free (fun impossible => by contradiction)
    (fun impossible => by contradiction) (fun impossible => by contradiction)

/-- What a step of a live coordinator leaves of the campaign. -/
private theorem Sound.act (sound : campaign.Sound) {self : Coordinator}
    (live : campaign.live = some self) (action : Action)
    (ledger : (campaign.step (.act action)).1.ledger.Sound)
    (attempted : ∀ key ∈ campaign.calls,
      ((campaign.step (.act action)).1.ledger.attempts.lookup key).isSome = true) :
    (campaign.step (.act action)).1.Sound := by
  have meets := (sound.meets live action).2
  simp only [step, live] at ledger attempted ⊢
  cases valueEq : (action.program campaign.ledger self).value with
  | ok visible =>
      simp only [valueEq] at meets ledger attempted ⊢
      have seen : campaign.calls ++ Campaign.called (.ok visible) =
          ((self.lifetime campaign.calls).see visible).called :=
        (Lifetime.called_see (self.lifetime campaign.calls) visible).symm
      obtain ⟨computed, -, running⟩ := meets.running
      refine ⟨ledger, ?_, ?_, ?_⟩
      · rw [seen]
        exact running.called
      · have shows := meets.shows
        cases visible with
        | inferred task =>
            exact sound.once.append (List.nodup_singleton _)
              (List.disjoint_singleton.mpr shows.2.1)
        | _ => simpa [Campaign.called] using sound.once
      · intro next nextLive
        have nextEq : (action.program campaign.ledger self).volatile = next := by
          simp only [Option.mem_def] at nextLive
          split at nextLive
          · contradiction
          · exact Option.some.inj nextLive
        subst nextEq
        exact running.renew seen.symm
  | error exception =>
      simp only [valueEq] at meets ledger attempted ⊢
      refine ⟨ledger, ?_, ?_, ?_⟩
      · simpa [Campaign.called] using attempted
      · simpa [Campaign.called] using sound.once
      · intro next nextLive
        simp only [Option.mem_def] at nextLive
        split at nextLive
        · contradiction
        · rename_i survives
          obtain rfl : (action.program campaign.ledger self).volatile = next :=
            Option.some.inj nextLive
          have ordinary : exception.endsProcess = false := by
            simpa [Campaign.endsProcess] using survives
          exact (meets.2 ordinary).1.renew (by simp [Coordinator.lifetime, Campaign.called])

/-- A campaign without a live coordinator. -/
private theorem Sound.dead (sound : campaign.Sound) {next : Campaign}
    (ledger : next.ledger.Sound)
    (attempted : ∀ key ∈ campaign.calls, (next.ledger.attempts.lookup key).isSome = true)
    (calls : next.calls = campaign.calls) (live : next.live = none) : next.Sound :=
  ⟨ledger, by rw [calls]; exact attempted, by rw [calls]; exact sound.once, by simp [live]⟩

/-- A start that succeeds was accepted. -/
theorem started_accepts {ledger : Ledger} {args : StartArgs}
    (valueEq : (Runtime.start ledger args.memory).value = .ok ()) :
    ledger.Accepts args.config := by
  by_contra refused
  have meets := (wp_start_refused refused : wp _ _ _ _ ledger args.memory).2
  simp only [valueEq] at meets

/-- A start that succeeds has recovered the ledger. -/
theorem started {ledger : Ledger} {args : StartArgs} (sound : ledger.Sound)
    (valueEq : (Runtime.start ledger args.memory).value = .ok ()) :
    let outcome := Runtime.start ledger args.memory
    let after := outcome.durable ledger
    after.Quiet ∧ after.tenant = some args.config.tenant ∧
      (∀ pool, ledger.Guards pool → pool ∈ after.quarantined) ∧
        ∃ reads, outcome.volatile = { args.memory with reads := reads } := by
  have meets := (wp_start sound (started_accepts valueEq) (fun impossible => by contradiction) :
    wp Runtime.start (Commit (.recovery false)) _ _ ledger args.memory).2
  simp only [valueEq] at meets
  exact meets

theorem started_some {ledger : Ledger} {args : StartArgs} {self : Coordinator}
    (live : self ∈ (match (Runtime.start ledger args.memory).value with
      | .ok _ => some (Runtime.start ledger args.memory).volatile
      | .error _ => none)) :
    (Runtime.start ledger args.memory).value = .ok () ∧
      (Runtime.start ledger args.memory).volatile = self := by
  split at live
  · rename_i valueEq
    exact ⟨valueEq, Option.some.inj live⟩
  · contradiction

private theorem Sound.start (sound : campaign.Sound) (live : campaign.live = none)
    (args : StartArgs)
    (ledger : (campaign.step (.start args)).1.ledger.Sound)
    (attempted : ∀ key ∈ campaign.calls,
      ((campaign.step (.start args)).1.ledger.attempts.lookup key).isSome = true) :
    (campaign.step (.start args)).1.Sound := by
  simp only [Campaign.step, live] at ledger attempted ⊢
  refine ⟨ledger, attempted, sound.once, ?_⟩
  intro next nextLive
  obtain ⟨valueEq, rfl⟩ := started_some nextLive
  obtain ⟨quiet, bound, -, reads, memoryEq⟩ := started sound.ledger valueEq
  rw [memoryEq]
  exact (Running.of_quiet ledger quiet bound reads attempted).renew rfl

/-- Every step keeps the invariant of a campaign. -/
theorem Sound.step (sound : campaign.Sound) (label : CampaignStep) :
    (campaign.step label).1.Sound := by
  have chain := sound.chain label
  have last : (campaign.step label).1.ledger ∈ campaign.ledger :: (campaign.step label).2 := by
    rw [step_ledger]
    exact last_mem _ _
  have ledger := sound_of_chain chain sound.ledger _ last
  have attempted : ∀ key ∈ campaign.calls,
      ((campaign.step label).1.ledger.attempts.lookup key).isSome = true :=
    fun key member => attempted_of_chain chain (sound.called key member) _ last
  cases live : campaign.live with
  | none =>
      cases label with
      | act action => simpa only [Campaign.step, live] using sound
      | crash action count => simpa only [Campaign.step, live] using sound
      | start args => exact sound.start live args ledger attempted
      | crashStart args count =>
          exact sound.dead ledger attempted (by simp only [Campaign.step, live])
            (by simp only [Campaign.step, live])
      | operate operation =>
          exact sound.dead ledger attempted (by simp only [Campaign.step, live])
            (by simp only [Campaign.step, live])
      | crashOperate operation count =>
          exact sound.dead ledger attempted (by simp only [Campaign.step, live])
            (by simp only [Campaign.step, live])
  | some self =>
      cases label with
      | act action => exact sound.act live action ledger attempted
      | crash action count =>
          exact sound.dead ledger attempted (by simp only [Campaign.step, live])
            (by simp only [Campaign.step, live])
      | start args => simpa only [Campaign.step, live] using sound
      | crashStart args count => simpa only [Campaign.step, live] using sound
      | operate operation => simpa only [Campaign.step, live] using sound
      | crashOperate operation count => simpa only [Campaign.step, live] using sound

/-- A live coordinator is the one before the step, further in its clock, or one
that has just recovered the ledger. -/
theorem Sound.live_step (sound : campaign.Sound) (label : CampaignStep) {next : Coordinator}
    (nextLive : next ∈ (campaign.step label).1.live) :
    (∃ self ∈ campaign.live, next.config = self.config ∧ next.clock = self.clock ∧
        self.reads ≤ next.reads) ∨
      campaign.live = none ∧ (campaign.step label).1.ledger.Quiet := by
  cases live : campaign.live with
  | none =>
      cases label with
      | start args =>
          simp only [Campaign.step, live] at nextLive ⊢
          obtain ⟨valueEq, -⟩ := started_some nextLive
          exact .inr ⟨trivial, (started sound.ledger valueEq).1⟩
      | _ => simp [Campaign.step, live] at nextLive
  | some self =>
      cases label with
      | act action =>
          refine .inl ⟨self, rfl, ?_⟩
          have ended := (sound.meets live action).2
          simp only [Campaign.step, live, Option.mem_def] at nextLive
          split at nextLive
          · contradiction
          rename_i survives
          obtain rfl := Option.some.inj nextLive
          cases valueEq : (action.program campaign.ledger self).value with
          | ok visible =>
              simp only [valueEq] at ended
              obtain ⟨_, -, kept⟩ := ended.running
              cases visible <;> exact ⟨kept.config, kept.clock, kept.reads⟩
          | error exception =>
              simp only [valueEq] at ended
              have ordinary : exception.endsProcess = false := by
                simpa [Campaign.endsProcess, valueEq] using survives
              have kept := (ended.2 ordinary).1
              exact ⟨kept.config, kept.clock, kept.reads⟩
      | crash action count => simp [Campaign.step, live] at nextLive
      | _ =>
          refine .inl ⟨self, rfl, ?_⟩
          simp only [Campaign.step, live, Option.mem_def, Option.some.injEq] at nextLive
          subst nextLive
          exact ⟨rfl, rfl, le_rfl⟩

/-! ## Runs -/

/-- Every reachable campaign is sound. -/
theorem sound_run (caps : BudgetCaps) (steps : List CampaignStep) :
    ((fresh caps).run steps).Sound :=
  runSteps_invariant Sound (fun _ label _ sound => sound.step label) (stepsMeet_true _ _)
    (sound_fresh caps)

/-- The journal of a run, beginning with the ledger as it was created. -/
def history (caps : BudgetCaps) (steps : List CampaignStep) : List Ledger :=
  .create caps :: (fresh caps).journal steps

theorem run_append (campaign : Campaign) (first second : List CampaignStep) :
    campaign.run (first ++ second) = (campaign.run first).run second := by
  rw [run, runSteps_append]
  rfl

theorem history_append (caps : BudgetCaps) (first second : List CampaignStep) :
    history caps (first ++ second) =
      history caps first ++ ((fresh caps).run first).journal second := by
  rw [history, journal, runSteps_append]
  rfl

/-- What relates the commits of every step relates the neighbours in the
journal of a run. -/
theorem history_chain {caps : BudgetCaps} {steps : List CampaignStep}
    {condition : Campaign → CampaignStep → Prop} {guarantee : Ledger → Ledger → Prop}
    (chained : ∀ campaign label, condition campaign label → campaign.Sound →
      List.IsChain guarantee (campaign.ledger :: (campaign.step label).2))
    (meets : StepsMeet Campaign.step condition (fresh caps) steps) :
    List.IsChain guarantee (history caps steps) :=
  runSteps_chain Sound Campaign.ledger (fun _ label _ sound => sound.step label) step_ledger
    chained meets (sound_fresh caps)

/-- Every neighbour in the journal of a run is one commit away. -/
theorem history_commits (caps : BudgetCaps) (steps : List CampaignStep) :
    List.IsChain (fun before after => ∃ who, Commit who before after) (history caps steps) := by
  refine history_chain (fun campaign label _ sound => ?_) (stepsMeet_true _ _)
  have chain := sound.chain label
  exact chain.imp fun _ _ commit => ⟨_, commit⟩

/-- What every commit preserves and some ledger of the journal has, the ledger of
the campaign has. -/
theorem history_last (property : Ledger → Prop)
    (preserved : ∀ who before after, Commit who before after → property before → property after)
    {caps : BudgetCaps} {steps : List CampaignStep} {ledger : Ledger}
    (member : ledger ∈ history caps steps) (holds : property ledger) :
    property ((fresh caps).run steps).ledger := by
  have last : ((fresh caps).run steps).ledger = _ :=
    runSteps_durable Campaign.ledger step_ledger (fresh caps) steps
  rw [last]
  refine isChain_last property ?_ (history_commits caps steps) member holds
  rintro before after ⟨who, commit⟩ holds
  exact preserved who before after commit holds

/-- What every commit preserves, every step preserves. -/
theorem Sound.preserves (sound : campaign.Sound) (property : Ledger → Prop)
    (preserved : ∀ who before after, Commit who before after → property before → property after)
    (label : CampaignStep) (holds : property campaign.ledger) :
    property (campaign.step label).1.ledger := by
  have chain := sound.chain label
  rw [step_ledger]
  exact isChain_preserves property (preserved _) chain holds _ (last_mem _ _)

/-- Every ledger of a run is sound. -/
theorem history_sound (caps : BudgetCaps) (steps : List CampaignStep) :
    ∀ ledger ∈ history caps steps, ledger.Sound := by
  refine isChain_preserves Ledger.Sound ?_ (history_commits caps steps)
    (Ledger.sound_create caps)
  rintro before after ⟨who, commit⟩ sound
  exact commit.sound sound

/-- The last ledger of the journal is that of the campaign. -/
theorem run_ledger (caps : BudgetCaps) (steps : List CampaignStep) :
    ((fresh caps).run steps).ledger ∈ history caps steps := by
  have last : ((fresh caps).run steps).ledger = _ :=
    runSteps_durable Campaign.ledger step_ledger (fresh caps) steps
  rw [last]
  exact last_mem _ _

end Campaign

end AgminaRuntime
