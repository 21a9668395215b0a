import AgminaRuntime.CampaignInvariant

/-!
# Submission is idempotent and atomic

Submitting a stored job again changes nothing, and a submission that raises
leaves the journal as it was.  Whether the stored receipt comes back depends
on one thing only: that the journal can still read it.
-/

namespace AgminaRuntime

open Durable Durable.Program Keyed

/-- Submission of a job is idempotent and atomic: the receipt of a stored job
comes back and nothing changes, other work under its identifier is refused,
and whatever raises has changed nothing in the journal. -/
structure SubmitsAtomically (ledger : Ledger) (memory : Coordinator) (job : Job) : Prop where
  again : ∀ row, ledger.jobs.lookup job.key = some row →
    row.job.fingerprint = job.fingerprint →
      Runtime.submit job.toJobFields ledger memory = ⟨.ok row.receipt, memory, []⟩
  differs : ∀ row, ledger.jobs.lookup job.key = some row →
    row.job.fingerprint ≠ job.fingerprint →
      ∃ exception, Runtime.submit job.toJobFields ledger memory =
        ⟨.error exception, memory, []⟩
  raised : ∀ exception, (Runtime.submit job.toJobFields ledger memory).value = .error exception →
    (Runtime.submit job.toJobFields ledger memory).durable ledger = ledger

section Stored

variable {ledger : Ledger} {self : Coordinator} {job : Job} {row : JobRow}

/-- The submission of a job whose identifier is taken. -/
theorem submit_stored (open_ : self.closed = false) (tenant : job.tenant = self.config.tenant)
    (found : ledger.jobs.lookup job.key = some row) :
    Runtime.submit job.toJobFields ledger self =
      match row.receipt.reparse with
      | none => ⟨.error (.validationError "Receipt"), self, []⟩
      | some receipt =>
          if row.job.fingerprint ≠ job.fingerprint then
            ⟨.error (.valueError "Idempotency ID reused for different work"), self, []⟩
          else ⟨.ok receipt, self, []⟩ := by
  have passes : ¬ (self.closed = true ∨ job.tenant ≠ self.config.tenant) := by
    simp [open_, tenant]
  simp only [Runtime.submit, readVolatile_bind, job.validate_toJobFields, if_neg passes,
    readDurable_bind, found, ofExcept_bind, Store.readRow]
  cases row.receipt.reparse with
  | none => rfl
  | some receipt =>
      by_cases same : row.job.fingerprint = job.fingerprint
      · simp only [same, ne_eq, not_true_eq_false, if_false]
        rfl
      · simp only [same, ne_eq, not_false_eq_true, if_true]
        rfl

end Stored

/-- In every reachable state of a runtime that is not closed, the submission of
a job is idempotent and atomic exactly when the receipt that its resubmission
should return can be read back from the journal. -/
theorem submission_atomic_iff (caps : BudgetCaps) (steps : List CampaignStep) :
    let campaign := (Campaign.fresh caps).run steps
    ∀ self ∈ campaign.live, self.closed = false → ∀ job : Job,
      SubmitsAtomically campaign.ledger self job ↔
        ∀ row, campaign.ledger.jobs.lookup job.key = some row →
          row.job.fingerprint = job.fingerprint → row.receipt.Readable := by
  intro campaign self live open_ job
  have running := (Campaign.sound_run caps steps).live self live
  have tenant : ∀ row, campaign.ledger.jobs.lookup job.key = some row →
      job.tenant = self.config.tenant := by
    intro row found
    have sameKey : row.key = job.key := Table.key_of_lookup found
    rw [← running.row_tenant found]
    exact (congrArg Prod.fst sameKey).symm
  constructor
  · intro atomic row found same
    have returned := atomic.again row found same
    rw [submit_stored open_ (tenant row found) found] at returned
    cases read : row.receipt.reparse with
    | none => simp [read] at returned
    | some receipt =>
        simp only [read, same, ne_eq, not_true_eq_false, if_false, Outcome.mk.injEq,
          Except.ok.injEq] at returned
        rw [Receipt.Readable, read, returned.1]
  · intro readable
    constructor
    · intro row found same
      have read : row.receipt.reparse = some row.receipt := readable row found same
      rw [submit_stored open_ (tenant row found) found, read]
      exact if_neg (not_not.mpr same)
    · intro row found differs
      rw [submit_stored open_ (tenant row found) found]
      cases row.receipt.reparse with
      | none => exact ⟨_, rfl⟩
      | some receipt => exact ⟨_, if_pos differs⟩
    · intro exception raisedEq
      have meets := (wp_submit_job running job).2
      simp only [campaign] at raisedEq
      simp only [raisedEq] at meets
      exact meets.2.1

namespace Sample

/-- A provider error whose code holds an unpaired surrogate. -/
def unpaired : BackendReply :=
  .raised (.backendFailure (.new ("provider_error:" ++ ⟨[0xD800]⟩) true false))

/-- The call of the job fails with that error. -/
def failing : List CampaignStep :=
  sending ++ [.act (.finishTask job unpaired)]

def submittedJob : Job := ⟨fields, fields_valid⟩

end Sample

/-- The receipt of the failed call cannot be read back. -/
theorem Sample.failing_unreadable :
    ∃ row ∈ ((Campaign.fresh Sample.config.caps).run Sample.failing).ledger.jobs.lookup
      Sample.submittedJob.key, row.job = Sample.submittedJob ∧ row.receipt.reparse = none := by
  decide +kernel

theorem resubmission_raises :
    ∃ self ∈ ((Campaign.fresh Sample.config.caps).run Sample.failing).live, self.closed = false ∧
      ¬ SubmitsAtomically ((Campaign.fresh Sample.config.caps).run Sample.failing).ledger self
        Sample.submittedJob := by
  have started : ((Campaign.fresh Sample.config.caps).run Sample.failing).live.map
      (fun self => (self.closed, self.config.tenant)) = some (false, Sample.tenant) := by
    decide +kernel
  obtain ⟨self, live, selfEq⟩ := Option.map_eq_some_iff.mp started
  obtain ⟨row, found, sameJob, unread⟩ := Sample.failing_unreadable
  rw [Prod.mk.injEq] at selfEq
  refine ⟨self, live, selfEq.1, fun atomic => ?_⟩
  have returned := atomic.again row found (congrArg Job.fingerprint sameJob)
  rw [submit_stored selfEq.1 selfEq.2.symm found, unread] at returned
  simp at returned

end AgminaRuntime
