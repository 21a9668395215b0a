import AgminaRuntime.CampaignInvariant

/-!
# Pools with unconfirmed work

A live coordinator keeps every pool quarantined on which a call ended without
confirmed termination, so it reserves nothing there.  A restart knows such a
pool from its quarantine, or from an attempt that the journal still shows as
reserved or running.  The failure path settles the attempt and moves the
receipt before it commits the quarantine, and a crash in between leaves a pool
that the restart cannot see.
-/

namespace AgminaRuntime

open Durable Durable.Program Keyed

section Commits

variable {who : Author} {before after ledger : Ledger} {pool : Name} {pools : List Name}
  {commits : List Ledger}

/-- Only the operator ends a quarantine. -/
theorem Commit.quarantined_kept (commit : Commit who before after)
    (keeps : who ≠ .operator (some pool)) (member : pool ∈ before.quarantined) :
    pool ∈ after.quarantined := by
  cases commit with
  | addJob _ _ _ _ _ _ _ _ _ _ added =>
      obtain ⟨_, _, _, rfl⟩ := before.addJob_ok added
      exact member
  | reserve _ _ _ _ _ reserved =>
      obtain ⟨_, _, _, _, rfl⟩ := before.reserve_ok reserved
      exact member
  | reconcile applied =>
      obtain ⟨_, _, rfl⟩ := Store.applyCharges_frame applied
      exact member
  | quarantine other reason => exact (before.mem_quarantined_quarantinePool).mpr (.inr member)
  | release other =>
      refine (before.mem_quarantined_releaseQuarantine).mpr ⟨?_, member⟩
      rintro rfl
      exact keeps rfl
  | _ => exact member

theorem AttemptMove.pool_eq {attempt next : Attempt} (move : AttemptMove who attempt next) :
    next.pool = attempt.pool := by
  cases move <;> rfl

/-- No attempt appears on a pool that stays quarantined. -/
theorem reserved_outside (chain : List.IsChain (Commit who) (ledger :: commits))
    (contained : (∃ config entries, who = .coordinator config entries) → ∀ pool ∈ pools, pool ∈ ledger.quarantined) :
    ∀ state ∈ ledger :: commits, ∀ key attempt, ledger.attempts.lookup key = none →
      state.attempts.lookup key = some attempt → attempt.pool ∉ pools := by
  have invariant : ∀ state ∈ ledger :: commits,
      ((∃ config entries, who = .coordinator config entries) →
        ∀ pool ∈ pools, pool ∈ state.quarantined) ∧
        ∀ key attempt, ledger.attempts.lookup key = none →
          state.attempts.lookup key = some attempt → attempt.pool ∉ pools := by
    refine isChain_preserves (fun state => _ ∧ _) ?_ chain ⟨contained, ?_⟩
    · rintro before after commit ⟨contained, outside⟩
      refine ⟨?_, ?_⟩
      · rintro ⟨config, entries, rfl⟩ pool member
        exact commit.quarantined_kept (by simp) (contained ⟨config, entries, rfl⟩ pool member)
      · intro key attempt absent found
        cases earlier : before.attempts.lookup key with
        | none =>
            obtain ⟨row, endpoint, -, rfl, reserves⟩ := commit.attempt_new earlier found
            exact fun member => reserves.pool (contained reserves.author _ member)
        | some previous =>
            obtain ⟨next, nextFound, move⟩ := commit.attempt_kept earlier
            obtain rfl : next = attempt := Option.some.inj (nextFound.symm.trans found)
            rw [move.pool_eq]
            exact outside key previous absent earlier
    · intro key attempt absent found
      rw [absent] at found
      contradiction
  exact fun state member => (invariant state member).2

/-- The pools that are not released in a step stay quarantined. -/
theorem hazards_kept {action : Action} {discipline : Discipline} {self : Coordinator}
    {hazards : List Name}
    (chain : List.IsChain (Commit (action.author discipline self)) (ledger :: commits))
    (contained : ∀ pool ∈ hazards, pool ∈ ledger.quarantined) :
    ∀ pool ∈ Campaign.afterRelease hazards (action.releases commits),
      pool ∈ (commits.getLast?.getD ledger).quarantined := by
  intro pool member
  simp only [Campaign.afterRelease, List.mem_filter, decide_eq_true_eq] at member
  obtain ⟨hazard, unreleased⟩ := member
  by_cases releases : action.author discipline self = .operator (some pool)
  · have same : commits = [] := by
      cases action <;> simp [Action.author] at releases
      subst releases
      by_contra nonempty
      exact unreleased (by simp [Action.releases, nonempty])
    subst same
    exact contained pool hazard
  · exact isChain_preserves (fun state => pool ∈ state.quarantined)
      (fun _ _ commit member => commit.quarantined_kept releases member) chain
      (contained pool hazard) _ (last_mem _ _)

end Commits

/-! ## Runs -/

/-- No attempt that a step commits is on a pool that was hazardous before. -/
def Campaign.ReservesSafely (campaign : Campaign) (label : CampaignStep) : Prop :=
  ∀ ledger ∈ (campaign.step label).2, ∀ key attempt,
    campaign.ledger.attempts.lookup key = none → ledger.attempts.lookup key = some attempt →
      attempt.pool ∉ campaign.hazards

/-- A coordinator starts only while the journal still shows every hazardous
pool. -/
def CampaignStep.StartsGuarded (campaign : Campaign) : CampaignStep → Prop
  | .start args => campaign.ledger.Accepts args.config →
      ∀ pool ∈ campaign.hazards, campaign.ledger.Guards pool
  | _ => True

instance (campaign : Campaign) : ∀ label, Decidable (CampaignStep.StartsGuarded campaign label)
  | .start args => inferInstanceAs (Decidable (campaign.ledger.Accepts args.config →
      ∀ pool ∈ campaign.hazards, campaign.ledger.Guards pool))
  | .act _ | .crash _ _ | .crashStart _ _ | .operate _ | .crashOperate _ _ => .isTrue trivial

/-- A live coordinator has every hazardous pool in quarantine. -/
structure Campaign.Contained (campaign : Campaign) : Prop extends campaign.Sound where
  contained : ∀ self ∈ campaign.live, ∀ pool ∈ campaign.hazards,
    pool ∈ campaign.ledger.quarantined

namespace Campaign

variable {campaign : Campaign}

theorem Contained.step (state : campaign.Contained) (label : CampaignStep)
    (guarded : label.StartsGuarded campaign) : (campaign.step label).1.Contained := by
  refine ⟨state.toSound.step label, ?_⟩
  cases live : campaign.live with
  | none =>
      cases label with
      | act action => simp [Campaign.step, live]
      | crash action count => simp [Campaign.step, live]
      | start args =>
          simp only [Campaign.step, live]
          intro next nextLive pool member
          obtain ⟨valueEq, -⟩ := started_some nextLive
          obtain ⟨-, -, quarantined, -⟩ := started state.ledger valueEq
          refine quarantined pool (guarded ?_ pool member)
          exact started_accepts valueEq
      | crashStart args count => simp [Campaign.step, live]
      | operate operation => simp [Campaign.step, live]
      | crashOperate operation count => simp [Campaign.step, live]
  | some self =>
      have contained := state.contained self live
      cases label with
      | act action =>
          have meets := state.meets live action
          simp only [Campaign.step, live]
          intro next nextLive pool member
          rw [Option.mem_def] at nextLive
          split at nextLive
          · contradiction
          rename_i survives
          rw [if_neg survives] at member
          rcases List.mem_append.mp member with old | new
          · exact hazards_kept meets.1 contained pool old
          have post := meets.2
          cases valueEq : (action.program campaign.ledger self).value with
          | ok visible =>
              simp only [valueEq] at post
              exact post.quarantined pool new
          | error exception =>
              simp only [valueEq] at post survives
              rw [(post.2 (by simpa [endsProcess] using survives)).2] at new
              contradiction
      | crash action count => simp [Campaign.step, live]
      | start args => simpa only [Campaign.step, live] using state.contained
      | crashStart args count => simpa only [Campaign.step, live] using state.contained
      | operate operation => simpa only [Campaign.step, live] using state.contained
      | crashOperate operation count => simpa only [Campaign.step, live] using state.contained

theorem contained_run {caps : BudgetCaps} {steps : List CampaignStep}
    (guarded : StepsMeet Campaign.step CampaignStep.StartsGuarded (fresh caps) steps) :
    ((fresh caps).run steps).Contained :=
  runSteps_invariant Contained (fun _ label condition state => state.step label condition) guarded
    ⟨sound_fresh caps, by simp [fresh]⟩

end Campaign

/-- In a run whose starts still see every hazardous pool, no attempt is reserved
on a pool whose unconfirmed work the operator has not released. -/
theorem unconfirmedPool_unused (caps : BudgetCaps) (steps : List CampaignStep)
    (guarded : StepsMeet Campaign.step CampaignStep.StartsGuarded (Campaign.fresh caps) steps)
    (label : CampaignStep) :
    ((Campaign.fresh caps).run steps).ReservesSafely label := by
  have state := Campaign.contained_run guarded
  have chain := state.chain label
  intro ledger member
  refine reserved_outside chain ?_ ledger (List.mem_cons_of_mem _ member)
  rintro ⟨config, entries, coordinator⟩
  obtain ⟨self, live, -⟩ := CampaignStep.live_of_coordinator coordinator
  exact state.contained self live

/-- The next coordinator reopens the session and admits another job. -/
def Sample.resume : List CampaignStep :=
  [Sample.restart, .act (.openSession "drone" "inspect"),
    .act (.submit { Sample.fields with
      id := ⟨"next", by decide⟩, epoch := 1, clockId := Sample.secondClock })]

/-- A call times out, its failure is handled, and the process dies later. -/
def Sample.timeout : List CampaignStep :=
  Sample.sending ++
    [.act (.finishTask Sample.job (.raised .timeoutError)), .crash .tick 0] ++ Sample.resume

theorem unconfirmedPool_unused_timeout :
    ((Campaign.fresh Sample.config.caps).run Sample.timeout).ReservesSafely (.act .tick) :=
  unconfirmedPool_unused Sample.config.caps Sample.timeout (by decide +kernel) (.act .tick)

/-- The same timeout, but the process dies after the receipt is written. -/
def Sample.lostQuarantine : List CampaignStep :=
  Sample.sending ++ [.crash (.finishTask Sample.job (.raised .timeoutError)) 2] ++ Sample.resume

theorem unconfirmedPool_reserved :
    ¬ ((Campaign.fresh Sample.config.caps).run Sample.lostQuarantine).ReservesSafely
      (.act .tick) := by
  intro safe
  have reserved : ∃ ledger ∈ (((Campaign.fresh Sample.config.caps).run
      Sample.lostQuarantine).step (.act .tick)).2, ∃ attempt ∈ ledger.attempts.rows,
        ((Campaign.fresh Sample.config.caps).run Sample.lostQuarantine).ledger.attempts.lookup
          attempt.key = none ∧ attempt.pool ∈
            ((Campaign.fresh Sample.config.caps).run Sample.lostQuarantine).hazards := by
    decide +kernel
  obtain ⟨ledger, member, attempt, stored, absent, hazard⟩ := reserved
  exact safe ledger member attempt.key attempt absent (Table.lookup_of_mem stored) hazard

end AgminaRuntime
