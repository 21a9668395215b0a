import AgminaRuntime.CampaignInvariant

/-!
# The budget ceiling

An attempt is charged its quote until its cost is known, and recovery may hold
the quote of a running job again.  The exposure of a ledger therefore counts
the quote of every attempt whose job is still live.  A reservation is checked
when the exposure is what the budget shows, and nothing else raises it.
-/

namespace AgminaRuntime

open Durable Durable.Program Keyed

/-- No known charge exceeds the quote of its attempt. -/
def Ledger.WithinQuotes (ledger : Ledger) : Prop :=
  ∀ attempt ∈ ledger.attempts.rows, ∀ charge ∈ attempt.actual, charge ≤ attempt.quote

/-- What an attempt can come to without a new reservation. -/
def Ledger.attemptExposure (ledger : Ledger) (attempt : Attempt) : Nat :=
  if ∃ row ∈ ledger.jobs.lookup attempt.key, row.receipt.state.isLive = true then
    attempt.quote.val
  else attempt.contribution

def Ledger.exposure (ledger : Ledger) : Nat :=
  ledger.attempts.total ledger.attemptExposure

section Exposure

variable {who : Author} {ledger before after : Ledger} {attempt : Attempt} {key : Name × Name}

theorem Ledger.WithinQuotes.contribution_le (within : ledger.WithinQuotes)
    (found : ledger.attempts.lookup key = some attempt) :
    attempt.contribution ≤ attempt.quote.val := by
  unfold Attempt.contribution
  split
  · rename_i charge actual
    exact within attempt (Table.mem_of_lookup found) charge actual
  · exact le_rfl

theorem Ledger.contribution_le_exposure (within : ledger.WithinQuotes)
    (found : ledger.attempts.lookup key = some attempt) :
    attempt.contribution ≤ ledger.attemptExposure attempt := by
  unfold Ledger.attemptExposure
  split
  · exact within.contribution_le found
  · exact le_rfl

theorem Ledger.exposure_le_quote (within : ledger.WithinQuotes)
    (found : ledger.attempts.lookup key = some attempt) :
    ledger.attemptExposure attempt ≤ attempt.quote.val := by
  unfold Ledger.attemptExposure
  split
  · exact le_rfl
  · exact within.contribution_le found

/-- An unsettled attempt is exposed with its quote, live or not. -/
theorem Ledger.exposure_of_unsettled (unsettled : attempt.actual = none) :
    ledger.attemptExposure attempt = attempt.quote.val := by
  unfold Ledger.attemptExposure
  split
  · rfl
  · simp [Attempt.contribution, unsettled]

theorem Ledger.total_le_exposure (within : ledger.WithinQuotes) :
    ledger.admissionTotalMicrousd ≤ ledger.exposure := by
  rw [Ledger.admissionTotalMicrousd_eq]
  exact Table.total_le_total _ _ fun key attempt found =>
    ⟨attempt, found, Ledger.contribution_le_exposure within found⟩

/-- When a reservation is made, no exposure is hidden. -/
theorem Ledger.exposure_le_total (waiting : ledger.Waiting) (ended : ledger.SettledEnded) :
    ledger.exposure ≤ ledger.admissionTotalMicrousd := by
  rw [Ledger.admissionTotalMicrousd_eq]
  refine Table.total_le_total _ _ fun key attempt found => ⟨attempt, found, ?_⟩
  have keyEq : attempt.key = key := Table.key_of_lookup found
  unfold Ledger.attemptExposure
  split
  · rename_i live
    obtain ⟨row, rowFound, rowLive⟩ := live
    have unsettled : attempt.actual = none := by
      by_contra settled
      have notRunning := ended attempt (Table.mem_of_lookup found)
        (Option.isSome_iff_ne_none.mpr settled) row rowFound
      have queued : row.receipt.state = .queued := by
        cases stateEq : row.receipt.state <;> simp_all [JobState.isLive]
      rw [keyEq] at rowFound
      rw [waiting key row rowFound queued] at found
      contradiction
    simp [Attempt.contribution, unsettled]
  · exact le_rfl

/-- An attempt that was there before is no more exposed after a commit. -/
theorem Commit.exposure_le (commit : Commit who before after) (sound : before.Sound)
    (notRecovery : ∀ clean, who ≠ .recovery clean)
    (within : before.WithinQuotes) (withinAfter : after.WithinQuotes)
    {old : Attempt} (oldFound : before.attempts.lookup key = some old)
    (found : after.attempts.lookup key = some attempt) :
    after.attemptExposure attempt ≤ before.attemptExposure old := by
  obtain ⟨next, nextFound, move⟩ := commit.attempt_kept oldFound
  obtain rfl : next = attempt := Option.some.inj (nextFound.symm.trans found)
  cases move with
  | settled actual unsettled =>
      rw [before.exposure_of_unsettled unsettled]
      exact after.exposure_le_quote withinAfter found
  | @reheld clean _ _ => exact absurd rfl (notRecovery clean)
  | @abandoned clean _ => exact absurd rfl (notRecovery clean)
  | kept =>
      by_cases live : ∃ row ∈ after.jobs.lookup old.key, row.receipt.state.isLive = true
      · obtain ⟨row, rowFound, rowLive⟩ := live
        have present := sound.attempts key old oldFound
        rw [← (Table.key_of_lookup found : old.key = key)] at present
        obtain ⟨earlier, earlierFound⟩ := Option.isSome_iff_exists.mp present
        obtain ⟨later, laterFound, rowMove, -⟩ := commit.row_kept earlierFound
        obtain rfl : later = row := Option.some.inj (laterFound.symm.trans rowFound)
        have exposed : before.attemptExposure old = old.quote.val :=
          if_pos ⟨earlier, earlierFound, rowMove.live rowLive⟩
        rw [exposed]
        exact after.exposure_le_quote withinAfter found
      · rw [show after.attemptExposure old = old.contribution from if_neg live]
        exact before.contribution_le_exposure within oldFound

/-- A commit that is no reservation adds no attempt. -/
theorem Commit.reserves_or (commit : Commit who before after) :
    (∃ row endpoint, Reserves who before row endpoint after) ∨
      ∀ key attempt, after.attempts.lookup key = some attempt →
        ∃ old, before.attempts.lookup key = some old := by
  by_cases none_ : ∀ key attempt, after.attempts.lookup key = some attempt →
      ∃ old, before.attempts.lookup key = some old
  · exact .inr none_
  · push Not at none_
    obtain ⟨key, attempt, found, absent⟩ := none_
    obtain ⟨row, endpoint, -, -, reserves⟩ :=
      commit.attempt_new (Option.eq_none_iff_forall_ne_some.mpr absent) found
    exact .inl ⟨row, endpoint, reserves⟩

theorem Commit.caps_le (commit : Commit who before after) :
    before.caps.maxAttempts ≤ after.caps.maxAttempts ∧
      before.caps.maxMicrousd ≤ after.caps.maxMicrousd := by
  cases commit with
  | addJob _ _ _ _ _ _ _ _ _ _ added =>
      obtain ⟨_, _, _, rfl⟩ := before.addJob_ok added
      exact ⟨le_rfl, le_rfl⟩
  | reserve _ _ _ _ _ reserved =>
      obtain ⟨_, _, _, _, rfl⟩ := before.reserve_ok reserved
      exact ⟨le_rfl, le_rfl⟩
  | reconcile applied =>
      obtain ⟨_, _, rfl⟩ := Store.applyCharges_frame applied
      exact ⟨le_rfl, le_rfl⟩
  | extendBudget maxAttempts maxMicrousd attempts microusd => exact ⟨attempts, microusd⟩
  | _ => exact ⟨le_rfl, le_rfl⟩

theorem Reserves.attemptCount {row : JobRow} {endpoint : Endpoint}
    (reserves : Reserves who before row endpoint after) :
    after.attemptCount = before.attemptCount + 1 := by
  obtain ⟨attempts, events, inserted, rfl⟩ := reserves.frame
  simp [Ledger.attemptCount, (Table.insert?_eq_some_iff.mp inserted).2]

theorem Reserves.exposure {row : JobRow} {endpoint : Endpoint}
    (reserves : Reserves who before row endpoint after) :
    after.exposure = before.exposure + endpoint.reserveMicrousd.val := by
  obtain ⟨attempts, events, inserted, rfl⟩ := reserves.frame
  have quote : before.attemptExposure (.reservation row.job endpoint) =
      endpoint.reserveMicrousd.val := before.exposure_of_unsettled rfl
  rw [← quote]
  exact Table.total_of_rows_append _ (Table.insert?_eq_some_iff.mp inserted).2

/-- The number of attempts stays below its ceiling. -/
theorem Commit.attemptCount_ceiling (commit : Commit who before after)
    (ceiling : before.attemptCount ≤ before.caps.maxAttempts) :
    after.attemptCount ≤ after.caps.maxAttempts := by
  have caps := commit.caps_le.1
  rcases commit.reserves_or with ⟨row, endpoint, reserves⟩ | kept
  · rw [reserves.attemptCount]
    have room := reserves.attempts
    omega
  · have count : after.attemptCount ≤ before.attemptCount := Table.length_le_length kept
    omega

/-- The exposure stays below the ceiling, whoever commits but a recovery. -/
theorem Commit.exposure_ceiling (commit : Commit who before after) (sound : before.Sound)
    (notRecovery : ∀ clean, who ≠ .recovery clean)
    (within : before.WithinQuotes) (withinAfter : after.WithinQuotes)
    (ceiling : before.exposure ≤ before.caps.maxMicrousd) :
    after.exposure ≤ after.caps.maxMicrousd := by
  have caps := commit.caps_le.2
  rcases commit.reserves_or with ⟨row, endpoint, reserves⟩ | kept
  · rw [reserves.exposure]
    have shown := Ledger.exposure_le_total reserves.waiting reserves.ended
    have room := reserves.microusd
    omega
  · refine le_trans ?_ (ceiling.trans caps)
    refine Table.total_le_total _ _ fun key attempt found => ?_
    obtain ⟨old, oldFound⟩ := kept key attempt found
    exact ⟨old, oldFound,
      commit.exposure_le sound notRecovery within withinAfter oldFound found⟩

end Exposure

/-! ## Recovery -/

/-- The exposure of the attempts, with the jobs as they were at a start. -/
def Ledger.exposureFrom (start after : Ledger) : Nat :=
  after.attempts.total start.attemptExposure

section Recovery

variable {start ledger : Ledger} {self : Coordinator} {tenant : Name}

/-- A change of one attempt that does not raise its own exposure. -/
theorem Ledger.exposureFrom_le {before after : Ledger}
    (bounded : ∀ key attempt, after.attempts.lookup key = some attempt →
      ∃ old, before.attempts.lookup key = some old ∧
        start.attemptExposure attempt ≤ start.attemptExposure old) :
    start.exposureFrom after ≤ start.exposureFrom before :=
  Table.total_le_total _ _ bounded

/-- The quote of a job that was live at the start is held again. -/
theorem Ledger.exposureFrom_rehold {key : Name × Name} {row : JobRow}
    (found : start.jobs.lookup key = some row) (live : row.receipt.state.isLive = true) :
    start.exposureFrom (ledger.settleAttempt key none) ≤ start.exposureFrom ledger := by
  refine Ledger.exposureFrom_le fun other attempt attemptFound => ?_
  rw [Ledger.lookup_settleAttempt] at attemptFound
  split at attemptFound
  · rename_i same
    obtain ⟨old, oldFound, rfl⟩ := Option.map_eq_some_iff.mp attemptFound
    have keyEq : old.key = key := Table.key_of_lookup oldFound
    refine ⟨old, by rw [same]; exact oldFound, ?_⟩
    have exposed : start.attemptExposure old = old.quote.val :=
      if_pos ⟨row, by rw [keyEq]; exact found, live⟩
    rw [exposed]
    exact (start.exposure_of_unsettled rfl).le
  · exact ⟨attempt, attemptFound, le_rfl⟩

theorem Ledger.exposureFrom_abandon (key : Name × Name) :
    start.exposureFrom (ledger.abandonAttempt key) ≤ start.exposureFrom ledger := by
  refine Ledger.exposureFrom_le fun other attempt attemptFound => ?_
  rw [Ledger.lookup_abandonAttempt] at attemptFound
  split at attemptFound
  · rename_i same
    obtain ⟨old, oldFound, rfl⟩ := Option.map_eq_some_iff.mp attemptFound
    exact ⟨old, by rw [same]; exact oldFound, le_rfl⟩
  · exact ⟨attempt, attemptFound, le_rfl⟩

/-- Recovery raises no exposure. -/
def Lowers (start before after : Ledger) : Prop :=
  start.exposureFrom after ≤ start.exposureFrom before

theorem wp_recoverJob_exposure (now : Ns) {entry : Job × Receipt}
    (stored : start.Stored entry) (alive : entry.2.state.isLive = true) :
    wp (Store.recoverJob entry.1.tenant now entry) (Lowers start) (fun _ _ _ => True)
      (fun _ _ _ => True) ledger self := by
  obtain ⟨job, old⟩ := entry
  simp only [Store.recoverJob, wp_bind, wp_receipt]
  refine ⟨le_rfl, wp_recoverRunning ?_ ?_⟩
  · intro _
    exact (wp_event _ _).mpr ⟨le_rfl, trivial⟩
  · intro attempt _ _
    refine ⟨le_rfl, Ledger.exposureFrom_rehold stored alive, ?_⟩
    exact (wp_event _ _).mpr ⟨le_rfl, trivial⟩

theorem wp_recover_exposure (now : Ns) (sound : ledger.Sound)
    (bound : ledger.tenant = some tenant) :
    wp (Store.recover tenant now) (Lowers ledger) (fun _ _ _ => True) (fun _ _ _ => True)
      ledger self := by
  simp only [Store.recover, wp_bind]
  refine wp_jobs sound bound (by simp) (by simp [JobState.isLive]) ?_
  intro entries reads
  simp only [wp_bind]
  refine wp_post (wp_forEach (fun rest _ _ => rest ⊆ entries) ?_ (List.Subset.refl _)) ?_
    (fun _ _ _ failed => failed)
  · intro entry rest middle memory within
    have member := within List.mem_cons_self
    have stored := reads.stored entry member
    have sameTenant : tenant = entry.1.tenant := by
      have rowTenant := (sound.rows _ _ stored).tenant
      rw [bound, Option.some.injEq] at rowTenant
      exact rowTenant
    have alive : entry.2.state.isLive = true := by
      have state := reads.selected entry member
      simp only [List.mem_cons, List.not_mem_nil, or_false] at state
      rcases state with queued | running
      · rw [queued]; rfl
      · rw [running]; rfl
    rw [sameTenant]
    exact wp_post (wp_recoverJob_exposure now stored alive)
      (fun _ _ _ _ => fun _ later => within (List.mem_cons_of_mem _ later))
      (fun _ _ _ failed => failed)
  · intro _ ended memory _
    simp only [wp_bind, wp_readDurable]
    refine wp_post (wp_forEach (fun _ _ _ => True) ?_ trivial) ?_ (fun _ _ _ failed => failed)
    · intro attempt rest middle memory _
      simp only [Store.recoverAttempt, wp_bind, wp_quarantine, wp_commit, wp_event]
      exact ⟨le_rfl, Ledger.exposureFrom_abandon _, le_rfl, trivial⟩
    · intro _ free memory _
      simp only [wp_bind, wp_readDurable]
      refine wp_post (wp_forEach (fun _ _ _ => True) ?_ trivial) (fun _ _ _ _ => trivial)
        (fun _ _ _ failed => failed)
      intro session rest middle memory _
      simp only [Store.recoverSession, wp_putSession]
      exact ⟨le_rfl, trivial⟩

theorem wp_start_exposure (sound : ledger.Sound) :
    wp Runtime.start (Lowers ledger) (fun _ _ _ => True) (fun _ _ _ => True) ledger self := by
  by_cases accepts : ledger.Accepts self.config
  · have commit : Commit (.recovery false) ledger (ledger.bindTenant self.config.tenant) :=
      .bindTenant _ accepts.2
    refine wp_start_accepted accepts le_rfl fun bound => ?_
    exact wp_post (wp_recover_exposure _ (commit.sound sound) bound)
      (fun _ _ _ _ => ⟨le_rfl, trivial⟩) (fun _ _ _ failed => failed)
  · exact wp_mono (wp_start_refused accepts) (fun _ _ impossible => impossible.elim)
      (fun _ _ _ _ => trivial) (fun _ _ _ _ => trivial)

/-- A recovery makes no job live. -/
theorem Commit.recovered_live {clean : Bool} {before after : Ledger} {key : Name × Name}
    (commit : Commit (.recovery clean) before after) {row : JobRow}
    (found : after.jobs.lookup key = some row) (live : row.receipt.state.isLive = true) :
    ∃ old, before.jobs.lookup key = some old ∧ old.receipt.state.isLive = true := by
  cases earlier : before.jobs.lookup key with
  | none =>
      obtain ⟨_, author, -⟩ := (commit.row_new earlier found).1.author
      contradiction
  | some old =>
      obtain ⟨next, nextFound, move, -⟩ := commit.row_kept earlier
      obtain rfl : next = row := Option.some.inj (nextFound.symm.trans found)
      exact ⟨old, rfl, move.live live⟩

theorem Commit.recovered_caps {clean : Bool} {before after : Ledger}
    (commit : Commit (.recovery clean) before after) : after.caps = before.caps := by
  cases commit <;> rfl

/-- The exposure of a ledger in recovery is bounded by that at the start. -/
theorem Ledger.exposure_le_from {after : Ledger} (within : after.WithinQuotes)
    (lived : ∀ key row, after.jobs.lookup key = some row → row.receipt.state.isLive = true →
      ∃ old, start.jobs.lookup key = some old ∧ old.receipt.state.isLive = true) :
    after.exposure ≤ start.exposureFrom after := by
  refine Table.total_le_total _ _ fun key attempt found => ⟨attempt, found, ?_⟩
  by_cases live : ∃ row ∈ after.jobs.lookup attempt.key, row.receipt.state.isLive = true
  · obtain ⟨row, rowFound, rowLive⟩ := live
    obtain ⟨old, oldFound, oldLive⟩ := lived _ row rowFound rowLive
    rw [show start.attemptExposure attempt = attempt.quote.val from if_pos ⟨old, oldFound, oldLive⟩]
    exact after.exposure_le_quote within found
  · rw [show after.attemptExposure attempt = attempt.contribution from if_neg live]
    unfold Ledger.attemptExposure
    split
    · exact within.contribution_le found
    · exact le_rfl

/-- No commit of a recovery, however far it gets, exceeds the ceiling. -/
theorem start_exposure {args : StartArgs} {commits : List Ledger} {count : Nat}
    (sound : ledger.Sound)
    (commitsEq : commits = (Runtime.start ledger args.memory).commits.take count)
    (within : ∀ state ∈ ledger :: commits, state.WithinQuotes)
    (ceiling : ledger.exposure ≤ ledger.caps.maxMicrousd) :
    ∀ state ∈ commits, state.exposure ≤ state.caps.maxMicrousd := by
  have chain : List.IsChain (Commit (.recovery false)) (ledger :: commits) := by
    rw [commitsEq]
    exact isChain_take (start_commits sound args fun impossible => by contradiction) count
  have lowers : List.IsChain (Lowers ledger) (ledger :: commits) := by
    rw [commitsEq]
    exact isChain_take (wp_start_exposure sound).1 count
  intro state member
  have listed := List.mem_cons_of_mem ledger member
  have caps : state.caps = ledger.caps := by
    refine isChain_preserves (fun state => state.caps = ledger.caps) ?_ chain rfl state listed
    exact fun _ _ commit early => commit.recovered_caps.trans early
  have lived : ∀ key row, state.jobs.lookup key = some row → row.receipt.state.isLive = true →
      ∃ old, ledger.jobs.lookup key = some old ∧ old.receipt.state.isLive = true := by
    refine isChain_preserves (fun state => ∀ key row, state.jobs.lookup key = some row →
      row.receipt.state.isLive = true →
        ∃ old, ledger.jobs.lookup key = some old ∧ old.receipt.state.isLive = true) ?_ chain
      (fun key row found live => ⟨row, found, live⟩) state listed
    intro before after commit early key row found live
    obtain ⟨old, oldFound, oldLive⟩ := commit.recovered_live found live
    exact early key old oldFound oldLive
  have lowered : ledger.exposureFrom state ≤ ledger.exposure := by
    refine isChain_preserves (fun state => ledger.exposureFrom state ≤ ledger.exposure) ?_ lowers
      le_rfl state listed
    exact fun _ _ step early => le_trans step early
  calc
    state.exposure ≤ ledger.exposureFrom state :=
      Ledger.exposure_le_from (within state listed) lived
    _ ≤ ledger.exposure := lowered
    _ ≤ ledger.caps.maxMicrousd := ceiling
    _ = state.caps.maxMicrousd := by rw [caps]

end Recovery

/-! ## Runs -/

theorem exposure_of_chain {who : Author} {ledger : Ledger} {commits : List Ledger}
    (chain : List.IsChain (Commit who) (ledger :: commits)) (sound : ledger.Sound)
    (notRecovery : ∀ clean, who ≠ .recovery clean)
    (within : ∀ state ∈ ledger :: commits, state.WithinQuotes)
    (ceiling : ledger.exposure ≤ ledger.caps.maxMicrousd) :
    ∀ state ∈ commits, state.exposure ≤ state.caps.maxMicrousd := by
  have steps : List.IsChain (fun before after =>
      before.Sound ∧ before.exposure ≤ before.caps.maxMicrousd →
        after.Sound ∧ after.exposure ≤ after.caps.maxMicrousd) (ledger :: commits) := by
    refine chain.imp_of_mem_imp ?_
    rintro before after beforeMember afterMember commit ⟨sound, ceiling⟩
    exact ⟨commit.sound sound, commit.exposure_ceiling sound notRecovery
      (within before beforeMember) (within after afterMember) ceiling⟩
  have holds := isChain_preserves _ (fun _ _ step early => step early) steps ⟨sound, ceiling⟩
  exact fun state member => (holds state (List.mem_cons_of_mem _ member)).2

/-- The commits of a step stay below the ceiling while no charge exceeds its
quote. -/
theorem Campaign.Sound.exposure {campaign : Campaign} (sound : campaign.Sound)
    (label : CampaignStep)
    (within : ∀ state ∈ campaign.ledger :: (campaign.step label).2, state.WithinQuotes)
    (ceiling : campaign.ledger.exposure ≤ campaign.ledger.caps.maxMicrousd) :
    ∀ state ∈ (campaign.step label).2, state.exposure ≤ state.caps.maxMicrousd := by
  have chain := sound.chain label
  have bounded : (∀ clean, label.author .free campaign ≠ .recovery clean) →
      ∀ state ∈ (campaign.step label).2, state.exposure ≤ state.caps.maxMicrousd :=
    fun notRecovery => exposure_of_chain chain sound.ledger notRecovery within ceiling
  cases label with
  | act action =>
      refine bounded fun clean => ?_
      cases live : campaign.live with
      | none => simp [CampaignStep.author, live]
      | some self => simpa only [CampaignStep.author, live] using action.author_ne_recovery _ _ _
  | crash action count =>
      refine bounded fun clean => ?_
      cases live : campaign.live with
      | none => simp [CampaignStep.author, live]
      | some self => simpa only [CampaignStep.author, live] using action.author_ne_recovery _ _ _
  | operate operation =>
      exact exposure_of_chain chain sound.ledger operation.author_ne_recovery within ceiling
  | crashOperate operation count =>
      exact exposure_of_chain chain sound.ledger operation.author_ne_recovery within ceiling
  | start args =>
      simp only [Campaign.step] at within ⊢
      split at within
      · simp
      · exact start_exposure sound.ledger List.take_length.symm within ceiling
  | crashStart args count =>
      simp only [Campaign.step] at within ⊢
      split at within
      · simp
      · exact start_exposure sound.ledger rfl within ceiling

/-- What the budget of every ledger of a run shows. -/
theorem budget_ceiling (caps : BudgetCaps) (steps : List CampaignStep) :
    (∀ ledger ∈ Campaign.history caps steps, ledger.attemptCount ≤ ledger.caps.maxAttempts) ∧
    (Campaign.history caps steps).IsChain (fun before after =>
      ∀ key attempt, before.attempts.lookup key = none →
        after.attempts.lookup key = some attempt →
          before.knownMicrousd + before.heldMicrousd + attempt.quote.val ≤
            before.caps.maxMicrousd) ∧
    ((∀ ledger ∈ Campaign.history caps steps, ledger.WithinQuotes) →
      ∀ ledger ∈ Campaign.history caps steps,
        ledger.knownMicrousd + ledger.heldMicrousd ≤ ledger.caps.maxMicrousd) := by
  refine ⟨?_, ?_, ?_⟩
  · refine isChain_preserves (fun ledger => ledger.attemptCount ≤ ledger.caps.maxAttempts) ?_
      (Campaign.history_commits caps steps) (Nat.zero_le _)
    rintro before after ⟨who, commit⟩ ceiling
    exact commit.attemptCount_ceiling ceiling
  · refine (Campaign.history_commits caps steps).imp ?_
    rintro before after ⟨who, commit⟩ key attempt absent found
    obtain ⟨row, endpoint, -, rfl, reserves⟩ := commit.attempt_new absent found
    exact reserves.microusd
  · intro within ledger member
    refine (Ledger.total_le_exposure (within ledger member)).trans ?_
    exact runSteps_journal Campaign.Sound Campaign.ledger
      (fun _ label _ sound => sound.step label) Campaign.step_ledger
      (fun _ label _ sound within ceiling => sound.exposure label within ceiling)
      (stepsMeet_true _ _) (Campaign.sound_fresh caps) within (Nat.zero_le _) ledger member

end AgminaRuntime
