import AgminaRuntime.SubmissionAtomicity

/-!
# The journal can be read

Receipts are written without validation and read with it.  Every receipt that
a coordinator, a submission or a recovery writes passes; the receipt of a call
that returned carries text of the provider, and passes when that text does.
-/

namespace AgminaRuntime

open Durable Durable.Program Keyed

/-- Every row of the journal can be read back. -/
def Ledger.Readable (ledger : Ledger) : Prop :=
  ∀ key row, ledger.jobs.lookup key = some row → row.receipt.Readable

/-- `Store.job` and `Store.jobs` return every row as it was written. -/
structure Ledger.ReadsBack (ledger : Ledger) : Prop where
  job : ∀ {μ : Type} (memory : μ) tenant jobId row,
    ledger.jobs.lookup (tenant, jobId) = some row →
      (Store.job tenant jobId : LedgerProgram μ _) ledger memory =
        ⟨.ok (row.job, row.receipt), memory, []⟩
  jobs : ∀ {μ : Type} (memory : μ) tenant states,
    (Store.jobs tenant states : LedgerProgram μ _) ledger memory =
      ⟨.ok ((Store.selectJobs ledger tenant states).map fun row => (row.job, row.receipt)),
        memory, []⟩

theorem Store.readRow_eq_written_iff {row : JobRow} :
    readRow row = .ok (row.job, row.receipt) ↔ row.receipt.Readable := by
  rw [readRow, Receipt.Readable]
  cases row.receipt.reparse with
  | none => simp
  | some receipt => simp

theorem Store.readRows_written {rows : List JobRow}
    (readable : ∀ row ∈ rows, row.receipt.Readable) :
    readRows rows = .ok (rows.map fun row => (row.job, row.receipt)) := by
  induction rows with
  | nil => rfl
  | cons row rows ih =>
      rw [readRows, readRow_eq_written_iff.mpr (readable row List.mem_cons_self),
        ih fun other member => readable other (List.mem_cons_of_mem _ member)]
      rfl

/-- The journal returns what was written exactly when every receipt passes the
validation of a read. -/
theorem Ledger.readsBack_iff {ledger : Ledger} : ledger.ReadsBack ↔ ledger.Readable := by
  constructor
  · intro reads key row found
    have returned := congrArg Outcome.value (reads.job () key.1 key.2 row found)
    simp only [Store.job, readDurable_bind, found] at returned
    exact Store.readRow_eq_written_iff.mp returned
  · intro readable
    refine ⟨?_, ?_⟩
    · intro μ memory tenant jobId row found
      have written := Store.readRow_eq_written_iff.mpr (readable _ row found)
      simp only [Store.job, readDurable_bind, found, written]
      rfl
    · intro μ memory tenant states
      have written : Store.readRows (Store.selectJobs ledger tenant states) = _ :=
        Store.readRows_written fun row member =>
          readable row.key row (Table.lookup_of_mem (List.mem_filter.mp member).1)
      simp only [Store.jobs, readDurable_bind, written]
      rfl

/-! ## Runs -/

/-- Only an illegible task writes what cannot be read back. -/
theorem Commit.readable_kept {who : Author} {before after : Ledger}
    (commit : Commit who before after) (legible : who.Legible) (readable : before.Readable) :
    after.Readable := by
  intro key row found
  cases earlier : before.jobs.lookup key with
  | none => exact (commit.row_new earlier found).1.readable
  | some old =>
      obtain ⟨next, nextFound, move, -⟩ := commit.row_kept earlier
      obtain rfl : next = row := Option.some.inj (nextFound.symm.trans found)
      cases move with
      | kept => exact readable key _ earlier
      | written _ _ _ _ readableNext _ => exact readableNext legible

/-- A run under this discipline has no illegible task. -/
def Discipline.writesLegibly : Discipline := { Discipline.free with legible := true }

theorem CampaignStep.author_legible (label : CampaignStep) (campaign : Campaign) :
    (label.author .writesLegibly campaign).Legible := by
  rcases label.author_cases .writesLegibly campaign with
    ⟨self, -, action, -, author⟩ | recovery | ⟨released, operates⟩
  · rw [author]
    cases action <;> trivial
  · rw [recovery]
    trivial
  · rw [operates]
    trivial

/-- A legible step keeps the journal readable. -/
theorem Campaign.Sound.readable_commits {campaign : Campaign} (sound : campaign.Sound)
    {label : CampaignStep} (legible : label.Legible campaign) :
    List.IsChain (fun before after => before.Readable → after.Readable)
      (campaign.ledger :: (campaign.step label).2) := by
  have commits : List.IsChain (Commit (label.author .writesLegibly campaign))
      (campaign.ledger :: (campaign.step label).2) :=
    sound.commits label .writesLegibly (fun impossible => by contradiction)
      (fun _ => legible) (fun impossible => by contradiction)
  exact commits.imp fun before after commit =>
    commit.readable_kept (label.author_legible campaign)

theorem Campaign.Sound.readable_step {campaign : Campaign} (sound : campaign.Sound)
    {label : CampaignStep} (legible : label.Legible campaign)
    (readable : campaign.ledger.Readable) : (campaign.step label).1.ledger.Readable := by
  rw [Campaign.step_ledger]
  exact isChain_preserves Ledger.Readable (fun _ _ kept => kept)
    (sound.readable_commits legible) readable _ (last_mem _ _)

/-- In a run in which every reply that reaches a receipt carries readable text,
every ledger returns every row as it was written. -/
theorem journal_reads_back (caps : BudgetCaps) (steps : List CampaignStep)
    (legible : StepsMeet Campaign.step CampaignStep.Legible (Campaign.fresh caps) steps) :
    ∀ ledger ∈ Campaign.history caps steps, ledger.ReadsBack := by
  have chain : (Campaign.history caps steps).IsChain
      fun before after => before.Readable → after.Readable :=
    Campaign.history_chain (fun campaign label condition sound => sound.readable_commits condition)
      legible
  have created : (Ledger.create caps).Readable := by
    intro key row found
    simp [Ledger.create] at found
  intro ledger member
  apply Ledger.readsBack_iff.mpr
  exact isChain_preserves Ledger.Readable (fun _ _ kept => kept) chain created ledger member

/-- The job is sent, and its call returns. -/
def Sample.returning : List CampaignStep :=
  Sample.sending ++ [.act (.finishTask Sample.job (Sample.reply 5))]

theorem journal_reads_back_returning :
    ((Campaign.fresh Sample.config.caps).run Sample.returning).ledger.ReadsBack :=
  journal_reads_back Sample.config.caps Sample.returning (by decide +kernel) _
    (Campaign.run_ledger _ _)

/-- A provider's error code with an unpaired surrogate is stored and never read
again. -/
theorem journal_unreadable :
    ((Campaign.fresh Sample.config.caps).run Sample.failing).ledger ∈
        Campaign.history Sample.config.caps Sample.failing ∧
      ¬ ((Campaign.fresh Sample.config.caps).run Sample.failing).ledger.ReadsBack := by
  refine ⟨Campaign.run_ledger _ _, fun reads => ?_⟩
  obtain ⟨row, found, -, unread⟩ := Sample.failing_unreadable
  have readable : row.receipt.reparse = some row.receipt :=
    Ledger.readsBack_iff.mp reads _ row found
  rw [unread] at readable
  contradiction

end AgminaRuntime
