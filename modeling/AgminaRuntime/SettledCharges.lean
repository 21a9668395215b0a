import AgminaRuntime.CampaignInvariant

/-!
# Settled charges

A known charge is final, except for one gap: recovery holds the quote of every
running job again, also of one whose charge was committed just before the
crash.  A run whose recoveries meet no such job keeps every known charge.
-/

namespace AgminaRuntime

open Durable Keyed

/-- Every attempt with a known charge keeps it, so what is known to be spent
does not shrink. -/
structure Ledger.ChargesKept (earlier later : Ledger) : Prop where
  kept : ∀ key attempt charge, earlier.attempts.lookup key = some attempt →
    attempt.actual = some charge →
      ∃ next, later.attempts.lookup key = some next ∧ next.actual = some charge
  known : earlier.knownMicrousd ≤ later.knownMicrousd

/-- What is known to be spent follows from the single attempts. -/
theorem Ledger.chargesKept_of_kept {earlier later : Ledger}
    (attempted : ∀ key attempt, earlier.attempts.lookup key = some attempt →
      ∃ next, later.attempts.lookup key = some next ∧
        ∀ charge, attempt.actual = some charge → next.actual = some charge) :
    earlier.ChargesKept later := by
  refine ⟨?_, Table.total_le_total _ _ ?_⟩
  · intro key attempt charge found actual
    obtain ⟨next, nextFound, kept⟩ := attempted key attempt found
    exact ⟨next, nextFound, kept charge actual⟩
  · intro key attempt found
    obtain ⟨next, nextFound, kept⟩ := attempted key attempt found
    refine ⟨next, nextFound, ?_⟩
    cases actualEq : attempt.actual with
    | none => simp
    | some charge => simp [kept charge actualEq]

instance : Trans Ledger.ChargesKept Ledger.ChargesKept Ledger.ChargesKept where
  trans early late := by
    refine ⟨?_, early.known.trans late.known⟩
    intro key attempt charge found actual
    obtain ⟨next, nextFound, nextActual⟩ := early.kept key attempt charge found actual
    exact late.kept key next charge nextFound nextActual

theorem AttemptMove.charge_kept {who : Author} {attempt next : Attempt} {charge : Ns}
    (move : AttemptMove who attempt next) (clean : who ≠ .recovery false)
    (actual : attempt.actual = some charge) : next.actual = some charge := by
  cases move with
  | kept => exact actual
  | settled _ unsettled =>
      rw [unsettled] at actual
      contradiction
  | @reheld isClean _ unsettled =>
      cases isClean with
      | false => exact absurd rfl clean
      | true =>
          rw [unsettled rfl] at actual
          contradiction
  | abandoned => exact actual

/-- Only an unclean recovery forgets a charge. -/
theorem Commit.chargesKept {who : Author} {before after : Ledger}
    (commit : Commit who before after) (clean : who ≠ .recovery false) :
    before.ChargesKept after := by
  refine Ledger.chargesKept_of_kept fun key attempt found => ?_
  obtain ⟨next, nextFound, move⟩ := commit.attempt_kept found
  exact ⟨next, nextFound, fun charge actual => move.charge_kept clean actual⟩

/-- A run under this discipline has no recovery that meets a settled attempt of a
running job. -/
def Discipline.recoversClean : Discipline := { Discipline.free with clean := true }

theorem CampaignStep.author_clean (label : CampaignStep) (campaign : Campaign) :
    label.author .recoversClean campaign ≠ .recovery false := by
  intro recovers
  have unclean := CampaignStep.author_recovery recovers
  contradiction

/-- In a run whose recoveries meet no settled attempt of a running job, a known
charge is final. -/
theorem settledCharges_final (caps : BudgetCaps) (steps : List CampaignStep)
    (settled : StepsMeet Campaign.step CampaignStep.StartsSettled (Campaign.fresh caps) steps) :
    (Campaign.history caps steps).Pairwise Ledger.ChargesKept := by
  refine (Campaign.history_chain (fun campaign label condition sound => ?_) settled).pairwise
  have chain : List.IsChain (Commit (label.author .recoversClean campaign))
      (campaign.ledger :: (campaign.step label).2) :=
    sound.commits label .recoversClean (fun impossible => by contradiction)
      (fun impossible => by contradiction) (fun _ => condition)
  exact chain.imp fun before after commit => commit.chargesKept (label.author_clean campaign)

/-- A charge above its quote, a crash and a restart. -/
def Sample.overrun : List CampaignStep :=
  Sample.sending ++ [.act (.finishTask Sample.job (Sample.reply 20)), .crash .tick 0, Sample.restart]

theorem settledCharges_final_overrun :
    (Campaign.history Sample.config.caps Sample.overrun).Pairwise Ledger.ChargesKept :=
  settledCharges_final Sample.config.caps Sample.overrun (by decide +kernel)

/-- The same charge, but the process dies before it has written the receipt. -/
def Sample.lostCharge : List CampaignStep :=
  Sample.sending ++ [.crash (.finishTask Sample.job (Sample.reply 20)) 1, Sample.restart]

theorem settledCharge_lost :
    ¬ (Campaign.history Sample.config.caps Sample.lostCharge).Pairwise Ledger.ChargesKept := by
  intro kept
  have known : (Campaign.history Sample.config.caps Sample.lostCharge).Pairwise
      fun earlier later => earlier.knownMicrousd ≤ later.knownMicrousd :=
    kept.imp fun step => step.known
  revert known
  decide +kernel

end AgminaRuntime
