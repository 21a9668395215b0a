import AgminaRuntime.CampaignInvariant

/-!
# Sessions and the generations of jobs

Live work always belongs to the current generation of its session.  A session
leaves a generation for good: its epoch only grows, whatever is closed, reopened
or restarted, so a job that was admitted to an earlier epoch, or whose session
was closed, is never valid again.  Of the time bounds of a job only that of the
policy buffer can move, by a heartbeat.
-/

namespace AgminaRuntime

open Durable Durable.Program Keyed

/-- What every reachable state shows of its live work. -/
theorem live_work_current (caps : BudgetCaps) (steps : List CampaignStep) :
    let campaign := (Campaign.fresh caps).run steps
    ∀ self ∈ campaign.live, ∀ row ∈ campaign.ledger.jobs.rows,
      row.receipt.state = .queued ∨ row.receipt.state = .running →
        ∃ session, campaign.ledger.sessions.lookup (row.job.tenant, row.job.sessionId) =
            some session ∧
          session.state = .active ∧ session.clockId = self.clock.id ∧
            session.tenant = row.job.tenant ∧ session.epoch = row.job.epoch ∧
              session.taskRevision = row.job.taskRevision := by
  intro campaign self live row member state
  have sound : campaign.Sound := Campaign.sound_run caps steps
  refine (sound.live self live).current row.key row (Table.lookup_of_mem member) ?_
  rcases state with queued | running
  · rw [queued]; rfl
  · rw [running]; rfl

/-! ## Epochs -/

/-- No session has gone back to an earlier epoch. -/
def Ledger.EpochsGrow (earlier later : Ledger) : Prop :=
  ∀ key session, earlier.sessions.lookup key = some session →
    ∃ next, later.sessions.lookup key = some next ∧ session.epoch ≤ next.epoch

instance : Trans Ledger.EpochsGrow Ledger.EpochsGrow Ledger.EpochsGrow where
  trans early late := by
    intro key session found
    obtain ⟨next, nextFound, grown⟩ := early key session found
    obtain ⟨last, lastFound, later⟩ := late key next nextFound
    exact ⟨last, lastFound, grown.trans later⟩

section Moves

variable {who : Author} {before after ledger : Ledger} {job : Job}

theorem SessionMove.epoch_le {session next : Session} (move : SessionMove who session next) :
    session.epoch ≤ next.epoch := by
  cases move with
  | kept => exact le_rfl
  | turned later => exact Fin.le_def.mpr (by omega)
  | beaten => exact le_rfl
  | closed => exact le_rfl

theorem Commit.epochsGrow (commit : Commit who before after) : before.EpochsGrow after := by
  intro key session found
  obtain ⟨next, nextFound, move⟩ := commit.session_kept found
  exact ⟨next, nextFound, move.epoch_le⟩

/-- The session has left the generation of the job for a later epoch, or has been
closed in it. -/
def Session.Left (session : Session) (job : Job) : Prop :=
  job.epoch < session.epoch ∨ job.epoch = session.epoch ∧ session.state ≠ .active

def Ledger.Departed (ledger : Ledger) (job : Job) : Prop :=
  ∃ session, ledger.sessions.lookup job.sessionKey = some session ∧ session.Left job

theorem SessionMove.left {session next : Session} (move : SessionMove who session next)
    (left : session.Left job) : next.Left job := by
  cases move with
  | kept => exact left
  | beaten => exact left
  | closed =>
      rcases left with later | ⟨same, -⟩
      · exact .inl later
      · exact .inr ⟨same, by simp⟩
  | turned grown =>
      refine .inl (Fin.lt_def.mpr ?_)
      rcases left with later | ⟨same, -⟩
      · have := Fin.lt_def.mp later
        omega
      · rw [same]
        omega

/-- No session returns to a generation it has left. -/
theorem Commit.departed_kept (commit : Commit who before after) (departed : before.Departed job) :
    after.Departed job := by
  obtain ⟨session, found, left⟩ := departed
  obtain ⟨next, nextFound, move⟩ := commit.session_kept found
  exact ⟨next, nextFound, move.left left⟩

/-- An admitted job that is not of its session's current generation has lost it. -/
theorem Session.Admits.left {session : Session} (admits : session.Admits job)
    (lost : ¬ (session.epoch = job.epoch ∧ session.state = .active)) : session.Left job := by
  rcases lt_or_eq_of_le admits.1 with later | same
  · exact .inl later
  · exact .inr ⟨same, fun active => lost ⟨same.symm, active⟩⟩

/-- After a recovery every admitted job has lost its session. -/
theorem Ledger.Quiet.departed (quiet : ledger.Quiet) (admitted : ledger.Admitted job) :
    ledger.Departed job := by
  obtain ⟨session, found, admits⟩ := admitted
  refine ⟨session, found, admits.left fun current => ?_⟩
  rw [quiet.sessions _ _ found] at current
  exact absurd current.2 (by simp)

end Moves

/-! ## When a job is invalid -/

/-- `invalid_reason` against the stored session, at a reading of the clock. -/
def Ledger.invalidReason (ledger : Ledger) (clock : Clock) (reading : Nat) (job : Job) :
    Option InvalidReason :=
  (ledger.sessions.lookup job.sessionKey).bind fun session =>
    job.invalidReason session (clock.nowNs reading) clock.id

/-- The clock or the session of the job is no longer the current one, or its
fixed time bounds have passed. -/
def Outdated (ledger : Ledger) (clock : Clock) (reading : Nat) (job : Job) : Prop :=
  ledger.invalidReason clock reading job = some .clockEpochMismatch ∨
    ledger.invalidReason clock reading job = some .sessionEpochMismatch ∨
      job.fixedLatestNs ≤ (clock.nowNs reading).val

theorem Job.latestNs_le (job : Job) (session : Session) :
    job.latestNs session ≤ job.fixedLatestNs := by
  unfold latestNs
  split
  · exact min_le_left _ _
  · exact le_rfl

section Reasons

variable {ledger : Ledger} {clock : Clock} {reading : Nat} {job : Job}

/-- A job that has lost its session is invalid at every reading of every clock. -/
theorem Ledger.Departed.invalid (departed : ledger.Departed job) :
    ledger.invalidReason clock reading job ≠ none := by
  obtain ⟨session, found, left⟩ := departed
  rw [invalidReason, found, Option.bind_some, Ne, Job.invalidReason_eq_none_iff]
  rintro ⟨-, ⟨generation, active⟩, -⟩
  simp only [Prod.mk.injEq] at generation
  rcases left with later | ⟨-, inactive⟩
  · rw [generation.2.2.1] at later
    exact lt_irrefl _ later
  · exact inactive active

/-- A job whose fixed bounds have passed is invalid. -/
theorem Ledger.invalid_of_late {session : Session}
    (found : ledger.sessions.lookup job.sessionKey = some session)
    (late : job.latestNs session ≤ (clock.nowNs reading).val) :
    ledger.invalidReason clock reading job ≠ none := by
  rw [invalidReason, found, Option.bind_some, Ne, Job.invalidReason_eq_none_iff]
  rintro ⟨-, -, -, early⟩
  omega

end Reasons

/-- An admitted job of a live coordinator is outdated because it has lost its
session, or because its fixed bounds have passed. -/
theorem Outdated.departed {lifetime : Lifetime} {ledger : Ledger} {self : Coordinator}
    {reading : Nat} {job : Job} (outdated : Outdated ledger self.clock reading job)
    (live : Live lifetime ledger self) (admitted : ledger.Admitted job) :
    ledger.Departed job ∨ job.fixedLatestNs ≤ (self.clock.nowNs reading).val := by
  obtain ⟨session, found, admits⟩ := admitted
  rw [Outdated, ← or_assoc] at outdated
  refine outdated.imp_left fun mismatch => ⟨session, found, admits.left ?_⟩
  rintro ⟨same, active⟩
  have clock := live.sessionClock _ _ found active
  obtain ⟨revision, sessionClock⟩ := admits.2 same
  have key := Table.key_of_lookup found
  have tenant : session.tenant = job.tenant := congrArg Prod.fst key
  have sessionId : session.id = job.sessionId := congrArg Prod.snd key
  rw [Ledger.invalidReason, found, Option.bind_some, Job.invalidReason, if_neg, if_neg]
    at mismatch
  · split at mismatch
    · simp at mismatch
    · split at mismatch <;> simp at mismatch
  · simp [tenant, sessionId, same, revision, active]
  · simp [← sessionClock, clock]

/-! ## Admitted jobs over a run -/

/-- An admitted job has lost its session, or its snapshot was past at some
reading of the live clock. -/
structure Campaign.Dated (campaign : Campaign) (job : Job) : Prop where
  admitted : campaign.ledger.Admitted job
  past : ∀ self ∈ campaign.live, campaign.ledger.Departed job ∨
    ∃ reading ≤ self.reads, job.snapshotNs ≤ self.clock.nowNs reading

theorem CampaignStep.author_submission {label : CampaignStep} {discipline : Discipline}
    {campaign : Campaign} {nowNs : Ns}
    (submits : label.author discipline campaign = .submission nowNs) :
    ∃ self ∈ campaign.live, nowNs = self.clock.nowNs self.reads := by
  rcases label.author_cases discipline campaign with
    ⟨self, live, action, -, author⟩ | recovery | ⟨released, operates⟩
  · rw [author] at submits
    refine ⟨self, live, ?_⟩
    cases action <;> simp_all [Action.author]
  · rw [recovery] at submits
    contradiction
  · rw [operates] at submits
    contradiction

/-- A queued row among the commits of a step was queued before, or a submission
has just found its snapshot past. -/
theorem queued_since {who : Author} {start : Ledger} {commits : List Ledger}
    (chain : List.IsChain (Commit who) (start :: commits)) {ledger : Ledger}
    (member : ledger ∈ start :: commits) {key : Name × Name} {row : JobRow}
    (found : ledger.jobs.lookup key = some row) (queued : row.receipt.state = .queued) :
    (∃ old, start.jobs.lookup key = some old ∧ old.receipt.state = .queued ∧
        old.job = row.job) ∨
      ∃ nowNs, who = .submission nowNs ∧ row.job.snapshotNs ≤ nowNs := by
  refine isChain_preserves (fun state => ∀ row, state.jobs.lookup key = some row →
    row.receipt.state = .queued →
      (∃ old, start.jobs.lookup key = some old ∧ old.receipt.state = .queued ∧
          old.job = row.job) ∨
        ∃ nowNs, who = .submission nowNs ∧ row.job.snapshotNs ≤ nowNs) ?_ chain ?_
    ledger member row found queued
  · intro before after commit holds row found queued
    cases earlier : before.jobs.lookup key with
    | none =>
        obtain ⟨nowNs, author, past⟩ := (commit.row_new earlier found).1.author
        exact .inr ⟨nowNs, author, past queued⟩
    | some old =>
        obtain ⟨next, nextFound, move, -⟩ := commit.row_kept earlier
        obtain rfl : next = row := Option.some.inj (nextFound.symm.trans found)
        obtain rfl := move.eq_of_queued queued
        exact holds next earlier queued
  · exact fun row found queued => .inl ⟨row, found, queued, rfl⟩

namespace Campaign

variable {campaign : Campaign} {job : Job}

theorem Dated.step (dated : campaign.Dated job) (sound : campaign.Sound)
    (label : CampaignStep) : (campaign.step label).1.Dated job := by
  have admitted := sound.preserves (fun ledger => ledger.Admitted job)
    (fun _ _ _ commit admitted => commit.admitted admitted) label dated.admitted
  refine ⟨admitted, fun next nextLive => ?_⟩
  rcases sound.live_step label nextLive with ⟨self, live, -, clock, reads⟩ | ⟨-, quiet⟩
  · rcases dated.past self live with departed | ⟨reading, taken, past⟩
    · exact .inl (sound.preserves (fun ledger => ledger.Departed job)
        (fun _ _ _ commit departed => commit.departed_kept departed) label departed)
    · exact .inr ⟨reading, taken.trans reads, by rw [clock]; exact past⟩
  · exact .inl (quiet.departed admitted)

/-- A job that was ever queued is an admitted job from then on. -/
theorem dated_of_queued {caps : BudgetCaps} {steps : List CampaignStep} {ledger : Ledger}
    (member : ledger ∈ history caps steps) {key : Name × Name} {row : JobRow}
    (found : ledger.jobs.lookup key = some row) (queued : row.receipt.state = .queued) :
    ((fresh caps).run steps).Dated row.job := by
  induction steps using List.reverseRecOn generalizing ledger row with
  | nil =>
      obtain rfl : ledger = .create caps := List.mem_singleton.mp member
      simp [Ledger.create] at found
  | append_singleton steps label ih =>
      have sound := sound_run caps steps
      have stepped : (fresh caps).run (steps ++ [label]) =
          (((fresh caps).run steps).step label).1 := run_append _ _ _
      rw [stepped]
      have commits : history caps (steps ++ [label]) =
          history caps steps ++ (((fresh caps).run steps).step label).2 := by
        rw [history_append]
        simp [journal, runSteps]
      rw [commits] at member
      rcases List.mem_append.mp member with early | late
      · exact (ih early found queued).step sound label
      · rcases queued_since (sound.chain label) (List.mem_cons_of_mem _ late) found queued with
          ⟨old, oldFound, oldQueued, sameJob⟩ | ⟨nowNs, submits, past⟩
        · rw [← sameJob]
          exact (ih (run_ledger caps steps) oldFound oldQueued).step sound label
        · obtain ⟨author, authorLive, rfl⟩ := CampaignStep.author_submission submits
          have stored : ledger.Sound :=
            sound_of_chain (sound.chain label) sound.ledger _ (List.mem_cons_of_mem _ late)
          have admittedThen : ledger.Admitted row.job :=
            (stored.rows key row found).admitted (by rw [queued]; rfl)
          have admitted : (((fresh caps).run steps).step label).1.ledger.Admitted row.job := by
            rw [step_ledger]
            exact isChain_last (fun ledger => ledger.Admitted row.job)
              (fun _ _ commit admitted => commit.admitted admitted) (sound.chain label)
              (List.mem_cons_of_mem _ late) admittedThen
          refine ⟨admitted, fun next nextLive => ?_⟩
          rcases sound.live_step label nextLive with ⟨self, live, -, clock, reads⟩ | ⟨-, quiet⟩
          · refine .inr ⟨self.reads, reads, ?_⟩
            obtain rfl : self = author := Option.some.inj (live.symm.trans authorLive)
            rw [clock]
            exact past
          · exact .inl (quiet.departed admitted)

/-- While a coordinator lives on, an admitted job loses its session or keeps its
time bounds: only a heartbeat moves the one of the policy buffer. -/
structure Stays (job : Job) (clock : Clock) (reads : Nat) (beaten : Prop)
    (buffer : Option Ns) (campaign : Campaign) : Prop where
  sound : campaign.Sound
  admitted : campaign.ledger.Admitted job
  live : ∀ self ∈ campaign.live, campaign.ledger.Departed job ∨
    self.clock = clock ∧ reads ≤ self.reads ∧ (beaten ∨ ∃ session,
      campaign.ledger.sessions.lookup job.sessionKey = some session ∧
        session.bufferUntilNs = buffer)

end Campaign

theorem CampaignStep.author_heartbeat {label : CampaignStep} {discipline : Discipline}
    {campaign : Campaign} {sid : Name}
    (beats : label.author discipline campaign = .heartbeat sid) :
    (∃ expectedEpoch bufferUntilNs, label = .act (.heartbeat sid expectedEpoch bufferUntilNs)) ∨
      ∃ action count, label = .crash action count := by
  rcases label.author_cases discipline campaign with
    ⟨self, live, action, rfl | ⟨count, rfl⟩, author⟩ | recovery | ⟨released, operates⟩
  · rw [author] at beats
    cases action <;> simp_all [Action.author]
  · exact .inr ⟨action, count, rfl⟩
  · rw [recovery] at beats
    contradiction
  · rw [operates] at beats
    contradiction

/-- The buffer bound of an admitted job stands while its session is not observed,
unless the job loses the session. -/
theorem Commit.buffer_kept {who : Author} {before after : Ledger} {job : Job}
    {buffer : Option Ns} (commit : Commit who before after)
    (unbeaten : who ≠ .heartbeat job.sessionId) (admitted : before.Admitted job)
    (holds : before.Departed job ∨ ∃ session, before.sessions.lookup job.sessionKey =
      some session ∧ session.bufferUntilNs = buffer) :
    after.Departed job ∨ ∃ session, after.sessions.lookup job.sessionKey = some session ∧
      session.bufferUntilNs = buffer := by
  rcases holds with departed | ⟨session, found, same⟩
  · exact .inl (commit.departed_kept departed)
  · obtain ⟨next, nextFound, move⟩ := commit.session_kept found
    cases move with
    | kept => exact .inr ⟨_, nextFound, same⟩
    | closed => exact .inr ⟨_, nextFound, same⟩
    | beaten updatedNs bufferUntilNs =>
        have sessionId : session.id = job.sessionId :=
          congrArg Prod.snd (Table.key_of_lookup found)
        exact absurd (by rw [sessionId]) unbeaten
    | turned later =>
        obtain ⟨other, otherFound, admits⟩ := admitted
        obtain rfl : session = other := Option.some.inj (found.symm.trans otherFound)
        have earlier := Fin.le_def.mp admits.1
        exact .inl ⟨next, nextFound, .inl (Fin.lt_def.mpr (by omega))⟩

namespace Campaign

variable {campaign : Campaign} {job : Job} {clock : Clock} {reads : Nat} {beaten : Prop}
  {buffer : Option Ns}

theorem Stays.step (stays : campaign.Stays job clock reads beaten buffer) (label : CampaignStep)
    (unbeaten : beaten ∨ ∀ expectedEpoch bufferUntilNs,
      label ≠ .act (.heartbeat job.sessionId expectedEpoch bufferUntilNs)) :
    (campaign.step label).1.Stays job clock reads beaten buffer := by
  have admitted := stays.sound.preserves (fun ledger => ledger.Admitted job)
    (fun _ _ _ commit admitted => commit.admitted admitted) label stays.admitted
  refine ⟨stays.sound.step label, admitted, fun next nextLive => ?_⟩
  rcases stays.sound.live_step label nextLive with ⟨self, live, -, sameClock, later⟩ | ⟨-, quiet⟩
  swap
  · exact .inl (quiet.departed admitted)
  rcases stays.live self live with departed | ⟨clockEq, taken, kept⟩
  · exact .inl (stays.sound.preserves (fun ledger => ledger.Departed job)
      (fun _ _ _ commit departed => commit.departed_kept departed) label departed)
  rcases kept with isBeaten | bounded
  · exact .inr ⟨sameClock.trans clockEq, taken.trans later, .inl isBeaten⟩
  rcases unbeaten with isBeaten | quietly
  · exact .inr ⟨sameClock.trans clockEq, taken.trans later, .inl isBeaten⟩
  have author : label.author .free campaign ≠ .heartbeat job.sessionId := by
    intro beats
    rcases CampaignStep.author_heartbeat beats with ⟨epoch, until_, rfl⟩ | ⟨action, count, rfl⟩
    · exact quietly epoch until_ rfl
    · rw [Option.mem_def] at live
      simp [Campaign.step, live] at nextLive
  have bound := isChain_preserves (fun ledger => ledger.Admitted job ∧ (ledger.Departed job ∨
      ∃ session, ledger.sessions.lookup job.sessionKey = some session ∧
        session.bufferUntilNs = buffer))
    (fun _ _ commit holds => ⟨commit.admitted holds.1, commit.buffer_kept author holds.1 holds.2⟩)
    (stays.sound.chain label) ⟨stays.admitted, .inr bounded⟩ _ (last_mem _ _)
  rw [← step_ledger] at bound
  rcases bound.2 with departed | bounded
  · exact .inl departed
  · exact .inr ⟨sameClock.trans clockEq, taken.trans later, .inr bounded⟩

end Campaign

/-! ## Invalidation over a run -/

/-- Of a job that is not outdated and whose snapshot is past, only the buffer
bound can be over. -/
theorem buffer_over {ledger : Ledger} {clock : Clock} {reading : Nat} {job : Job}
    {session : Session} (found : ledger.sessions.lookup job.sessionKey = some session)
    (current : ¬ Outdated ledger clock reading job)
    (past : job.snapshotNs ≤ clock.nowNs reading)
    (invalid : ledger.invalidReason clock reading job ≠ none) :
    ledger.invalidReason clock reading job = some .deadlineOrFreshnessExpired ∧
      job.latestNs session ≤ (clock.nowNs reading).val ∧ job.workload = .policy ∧
        ∃ bufferUntil ∈ session.bufferUntilNs, bufferUntil ≤ clock.nowNs reading := by
  obtain ⟨noClock, noSession, early⟩ := by simpa only [Outdated, not_or] using current
  have reasonEq : ledger.invalidReason clock reading job =
      job.invalidReason session (clock.nowNs reading) clock.id := by
    rw [Ledger.invalidReason, found, Option.bind_some]
  rw [reasonEq] at noClock noSession invalid ⊢
  unfold Job.invalidReason at noClock noSession invalid ⊢
  split
  · rename_i clocks
    rw [if_pos clocks] at noClock
    exact absurd rfl noClock
  split
  · rename_i clocks generation
    rw [if_neg clocks, if_pos generation] at noSession
    exact absurd rfl noSession
  split
  · rename_i future
    exact absurd past (Fin.not_le.mpr future)
  split
  · rename_i late
    refine ⟨rfl, late, ?_⟩
    unfold Job.latestNs at late
    split at late
    · rename_i bufferUntil policy bounded
      refine ⟨policy, bufferUntil, bounded, Fin.le_def.mpr ?_⟩
      rcases min_le_iff.mp late with fixed | buffer
      · exact absurd fixed early
      · exact_mod_cast buffer
    · exact absurd late early
  · rename_i clocks generation future late
    rw [if_neg clocks, if_neg generation, if_neg future, if_neg late] at invalid
    exact absurd rfl invalid

/-- The session of a job is the one that its time bounds are read from. -/
theorem latestNs_of_buffer {job : Job} {first second : Session}
    (same : first.bufferUntilNs = second.bufferUntilNs) :
    job.latestNs first = job.latestNs second := by
  rw [Job.latestNs, Job.latestNs, same]

namespace Campaign

variable {campaign : Campaign} {job : Job} {self : Coordinator}

/-- A session that was opened stands in the ledger, in a later epoch. -/
theorem Sound.opened (sound : campaign.Sound) (live : campaign.live = some self)
    {sessionId taskRevision : String} {session : Session}
    (opened : (Runtime.openSession sessionId taskRevision campaign.ledger self).value =
      .ok session) :
    Turns campaign.ledger session
      (campaign.step (.act (.openSession sessionId taskRevision))).1.ledger := by
  have turns := (wp_openSession (sound.live self live) sessionId taskRevision).2
  simp only [opened] at turns
  simp only [Campaign.step, live, Action.program, Action.quietly, bind, Program.bind, opened,
    Outcome.durable, pure, Program.pure, List.append_nil]
  exact turns.2

theorem Sound.advanced (sound : campaign.Sound) (live : campaign.live = some self)
    {sid : Name} {expectedEpoch : Int} {taskRevision : String} {close : Bool} {session : Session}
    (advanced : (Runtime.advanceSession sid expectedEpoch taskRevision close campaign.ledger
      self).value = .ok session) :
    Turns campaign.ledger session
        (campaign.step (.act (.advanceSession sid expectedEpoch taskRevision close))).1.ledger ∧
      session.key = (self.config.tenant, sid) := by
  have turns := (wp_advanceSession (sound.live self live) sid expectedEpoch taskRevision close).2
  simp only [advanced] at turns
  simp only [Campaign.step, live, Action.program, Action.quietly, bind, Program.bind, advanced,
    Outcome.durable, pure, Program.pure, List.append_nil]
  exact turns.2

/-- A job that has lost its session has lost it for the rest of the run. -/
theorem Sound.departed_run (sound : campaign.Sound)
    (departed : campaign.ledger.Departed job) (steps : List CampaignStep) :
    (campaign.run steps).ledger.Departed job :=
  (runSteps_invariant (fun state => Campaign.Sound state ∧ state.ledger.Departed job)
    (fun _ label _ holds => ⟨holds.1.step label, holds.1.preserves
      (fun ledger => ledger.Departed job)
      (fun _ _ _ commit departed => commit.departed_kept departed) label holds.2⟩)
    (stepsMeet_true _ _) ⟨sound, departed⟩).2

theorem Dated.stays_run (dated : campaign.Dated job) (sound : campaign.Sound)
    (live : campaign.live = some self) {session : Session}
    (found : campaign.ledger.sessions.lookup job.sessionKey = some session) {beaten : Prop}
    (steps : List CampaignStep)
    (unbeaten : ∀ label ∈ steps, beaten ∨ ∀ expectedEpoch bufferUntilNs,
      label ≠ .act (.heartbeat job.sessionId expectedEpoch bufferUntilNs)) :
    (campaign.run steps).Stays job self.clock self.reads beaten session.bufferUntilNs := by
  refine runSteps_invariant
    (fun state => Stays job self.clock self.reads beaten session.bufferUntilNs state)
    (fun _ label condition stays => stays.step label condition)
    (stepsMeet_of_forall (fun label member _ => unbeaten label member) _)
    ⟨sound, dated.admitted, fun other otherLive => ?_⟩
  obtain rfl : self = other := Option.some.inj (live.symm.trans otherLive)
  exact .inr ⟨rfl, le_rfl, .inr ⟨session, found, rfl⟩⟩

/-- An outdated job is invalid for the rest of the run. -/
theorem Dated.outdated_run (dated : campaign.Dated job) (sound : campaign.Sound)
    (live : campaign.live = some self) (monotone : Monotone self.clock.nowNs)
    (outdated : Outdated campaign.ledger self.clock self.reads job)
    (steps : List CampaignStep) {next : Coordinator} (nextLive : next ∈ (campaign.run steps).live)
    {reading : Nat} (taken : next.reads ≤ reading) :
    (campaign.run steps).ledger.invalidReason next.clock reading job ≠ none := by
  rcases outdated.departed (sound.live self live).toLive dated.admitted with departed | late
  · exact (sound.departed_run departed steps).invalid
  obtain ⟨session, found, -⟩ := dated.admitted
  have stays := dated.stays_run sound live found steps
    fun _ _ => (.inl trivial : True ∨ _)
  obtain ⟨last, lastFound, -⟩ := stays.admitted
  rcases stays.live next nextLive with departed | ⟨clock, reads, -⟩
  · exact departed.invalid
  · refine Ledger.invalid_of_late lastFound ?_
    have bound := job.latestNs_le last
    have := Fin.le_def.mp (monotone (reads.trans taken))
    rw [clock]
    omega

end Campaign

/-- What every run shows of epochs and of jobs that were ever queued. -/
theorem invalidation_permanent (caps : BudgetCaps) (first second : List CampaignStep) :
    let campaign := (Campaign.fresh caps).run first
    let later := campaign.run second
    (Campaign.history caps (first ++ second)).Pairwise Ledger.EpochsGrow ∧
    (∀ self ∈ campaign.live, ∀ sessionId taskRevision session,
      (Runtime.openSession sessionId taskRevision campaign.ledger self).value = .ok session →
        Turns campaign.ledger session
          (campaign.step (.act (.openSession sessionId taskRevision))).1.ledger) ∧
    (∀ self ∈ campaign.live, ∀ sid expectedEpoch taskRevision close session,
      (Runtime.advanceSession sid expectedEpoch taskRevision close campaign.ledger self).value =
          .ok session →
        Turns campaign.ledger session
          (campaign.step (.act (.advanceSession sid expectedEpoch taskRevision close))).1.ledger ∧
        session.key = (self.config.tenant, sid)) ∧
    ∀ self ∈ campaign.live, Monotone self.clock.nowNs →
      ∀ ledger ∈ Campaign.history caps first, ∀ key row, ledger.jobs.lookup key = some row →
        row.receipt.state = .queued → ∀ next ∈ later.live, ∀ reading ≥ next.reads,
          (Outdated campaign.ledger self.clock self.reads row.job →
            later.ledger.invalidReason next.clock reading row.job ≠ none) ∧
          (campaign.ledger.invalidReason self.clock self.reads row.job ≠ none →
            later.ledger.invalidReason next.clock reading row.job = none →
              campaign.ledger.invalidReason self.clock self.reads row.job =
                some .deadlineOrFreshnessExpired ∧ row.job.workload = .policy ∧
              (∃ session, campaign.ledger.sessions.lookup row.job.sessionKey = some session ∧
                ∃ bufferUntil ∈ session.bufferUntilNs,
                  bufferUntil ≤ self.clock.nowNs self.reads) ∧
              ∃ expectedEpoch bufferUntilNs, CampaignStep.act
                (.heartbeat row.job.sessionId expectedEpoch bufferUntilNs) ∈ second) := by
  intro campaign later
  have sound : campaign.Sound := Campaign.sound_run caps first
  refine ⟨?_, ?_, ?_, ?_⟩
  · refine ((Campaign.history_commits caps (first ++ second)).imp ?_).pairwise
    rintro before after ⟨who, commit⟩
    exact commit.epochsGrow
  · intro self live sessionId taskRevision session opened
    exact sound.opened live opened
  · intro self live sid expectedEpoch taskRevision close session advanced
    exact sound.advanced live advanced
  · intro self live monotone ledger member key row found queued next nextLive reading taken
    have dated : campaign.Dated row.job := Campaign.dated_of_queued member found queued
    have permanent : Outdated campaign.ledger self.clock self.reads row.job →
        later.ledger.invalidReason next.clock reading row.job ≠ none := fun outdated =>
      dated.outdated_run sound live monotone outdated second nextLive taken
    refine ⟨permanent, fun invalid valid => ?_⟩
    have current : ¬ Outdated campaign.ledger self.clock self.reads row.job := fun outdated =>
      permanent outdated valid
    obtain ⟨session, sessionFound, -⟩ := dated.admitted
    have past : row.job.snapshotNs ≤ self.clock.nowNs self.reads := by
      rcases dated.past self live with departed | ⟨earlier, takenThen, pastThen⟩
      · exact absurd valid (sound.departed_run departed second).invalid
      · exact pastThen.trans (monotone takenThen)
    obtain ⟨reason, elapsed, policy, bufferUntil, bounded, reached⟩ :=
      buffer_over sessionFound current past invalid
    refine ⟨reason, policy, ⟨session, sessionFound, bufferUntil, bounded, reached⟩, ?_⟩
    by_contra quietly
    have stays : later.Stays row.job self.clock self.reads False session.bufferUntilNs := by
      refine dated.stays_run sound live sessionFound second fun label labelMember => .inr ?_
      rintro expectedEpoch until_ rfl
      exact quietly ⟨expectedEpoch, until_, labelMember⟩
    rcases stays.live next nextLive with departed | ⟨clock, reads, impossible | kept⟩
    · exact departed.invalid valid
    · exact impossible
    · obtain ⟨last, lastFound, same⟩ := kept
      refine Ledger.invalid_of_late lastFound ?_ valid
      rw [latestNs_of_buffer same, clock]
      have := Fin.le_def.mp (monotone (reads.trans taken))
      omega

end AgminaRuntime
