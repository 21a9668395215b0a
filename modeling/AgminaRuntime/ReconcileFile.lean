import AgminaRuntime.DryRun
import AgminaRuntime.RecordImport
import AgminaRuntime.Telemetry

/-!
# Reconciling a file

`reconcile_file` loads the records, looks them up and, unless it is a dry run,
settles them.  The ledger moves once and as a whole, or not at all.
-/

namespace AgminaRuntime

open Durable Durable.Program Json

/-- What `reconcile_file` returns. -/
structure FileReport where
  applied : Bool
  preview : PreflightReport
  before : Telemetry.Budget
  after : Telemetry.Budget

section

variable (φ : Type) [Json.Floats φ] {μ : Type}

/-- `reconcile_file(store, tenant, path, apply=apply, now_ns=now_ns)` of a file
with the bytes. -/
def reconcileFile (tenant : PyStr) (raw : List UInt8) (apply : Bool) (nowNs : Ns) :
    LedgerProgram μ FileReport := do
  let records ← ofExcept (loadRecords φ raw)
  let preview ← Store.preflight tenant records
  let before ← readDurable
  if apply then
    Store.reconcileManyFor tenant
      (records.map fun charge =>
        (.str charge.job, .int charge.actualMicrousd, .str charge.evidenceRef)) nowNs
  else pure ()
  let after ← readDurable
  pure ⟨apply, preview, Telemetry.budget before, Telemetry.budget after⟩

/-! ## What a file does to the ledger -/

section Binding

variable {δ ε α β : Type} {first : Program δ μ ε α} {start : δ} {memory : μ}

theorem bind_quiet {value : α} (ran : first start memory = ⟨.ok value, memory, []⟩)
    (next : α → Program δ μ ε β) : (first >>= next) start memory = next value start memory := by
  show Program.bind first next start memory = _
  unfold Program.bind
  rw [ran]
  rfl

theorem bind_raised {exception : ε} (ran : first start memory = ⟨.error exception, memory, []⟩)
    (next : α → Program δ μ ε β) :
    (first >>= next) start memory = ⟨.error exception, memory, []⟩ := by
  show Program.bind first next start memory = _
  unfold Program.bind
  rw [ran]

theorem bind_committed {value : α} {after : δ}
    (ran : first start memory = ⟨.ok value, memory, [after]⟩) (next : α → Program δ μ ε β) :
    (first >>= next) start memory =
      ⟨(next value after memory).value, (next value after memory).volatile,
        after :: (next value after memory).commits⟩ := by
  show Program.bind first next start memory = _
  unfold Program.bind
  rw [ran]
  rfl

end Binding

variable {φ} {tenant : PyStr} {raw : List UInt8} {nowNs : Ns} {ledger : Ledger} {memory : μ}
  {records : ImportRecords}

/-- The report of `preflight` on records that it lets pass. -/
def ImportRecords.preview (records : ImportRecords) : PreflightReport :=
  ⟨records.charges.length, (records.charges.map Charge.actualMicrousd).sum,
    records.charges.map Charge.job⟩

/-- Every record names an attempt that its tenant still has to settle. -/
def ImportRecords.Unresolved (records : ImportRecords) (ledger : Ledger) (tenant : PyStr) : Prop :=
  ∀ charge ∈ records.charges, Store.Unresolved ledger tenant charge

theorem reconcileFile_refused {exception : PyExc} (refused : loadRecords φ raw = .error exception)
    (apply : Bool) :
    reconcileFile φ tenant raw apply nowNs ledger memory = ⟨.error exception, memory, []⟩ := by
  rw [reconcileFile, ofExcept_bind, refused]

theorem reconcileFile_loaded (loaded : loadRecords φ raw = .ok records.charges) (apply : Bool) :
    reconcileFile φ tenant raw apply nowNs ledger memory =
      (do
        let preview ← Store.preflight tenant records.charges
        let before ← readDurable
        if apply then Store.reconcileManyFor tenant records.entries nowNs else pure ()
        let after ← readDurable
        pure ⟨apply, preview, Telemetry.budget before, Telemetry.budget after⟩ :
          LedgerProgram μ FileReport) ledger memory := by
  rw [reconcileFile, ofExcept_bind, loaded]
  rfl

theorem checkUnresolvedFor_ok :
    Store.checkUnresolvedFor ledger tenant records.charges = .ok () ↔
      records.Unresolved ledger tenant := by
  by_cases known : ∃ name : Name, PyStr.ofString name.text = tenant
  · obtain ⟨name, rfl⟩ := known
    rw [Store.checkUnresolvedFor_name]
    exact Store.checkUnresolved_ok
  · constructor
    · intro checked
      obtain ⟨exception, refused⟩ : ∃ exception,
          Store.checkUnresolvedFor ledger tenant records.charges = .error exception :=
        Store.checkUnresolvedFor_foreign (not_exists.mp known) records.nonempty
      rw [refused] at checked
      contradiction
    · intro unresolved
      obtain ⟨charge, member⟩ := List.exists_mem_of_ne_nil _ records.nonempty
      exact absurd (unresolved charge member).name known

/-- The dry run looks every record up. -/
theorem preflight_eq :
    (records.Unresolved ledger tenant ∧ Store.preflight tenant records.charges ledger memory =
        ⟨.ok records.preview, memory, []⟩) ∨
      (¬ records.Unresolved ledger tenant ∧ ∃ exception,
        Store.preflight tenant records.charges ledger memory = ⟨.error exception, memory, []⟩) := by
  rw [preflight_records, ← checkUnresolvedFor_ok]
  by_cases empty : tenant.length = 0
  · rw [if_pos empty]
    refine .inr ⟨?_, _, rfl⟩
    rw [checkUnresolvedFor_ok]
    intro unresolved
    obtain ⟨charge, member⟩ := List.exists_mem_of_ne_nil _ records.nonempty
    obtain ⟨name, rfl⟩ := (unresolved charge member).name
    exact absurd empty (length_ofString_name name)
  · rw [if_neg empty]
    cases Store.checkUnresolvedFor ledger tenant records.charges with
    | ok => exact .inl ⟨rfl, rfl⟩
    | error exception => exact .inr ⟨by simp, exception, rfl⟩

/-- Some record has nothing to settle: nothing happens. -/
theorem reconcileFile_resolved (loaded : loadRecords φ raw = .ok records.charges)
    (resolved : ¬ records.Unresolved ledger tenant) (apply : Bool) :
    ∃ exception, reconcileFile φ tenant raw apply nowNs ledger memory =
      ⟨.error exception, memory, []⟩ := by
  rcases @preflight_eq μ tenant ledger memory records with ⟨unresolved, -⟩ | ⟨-, exception, refused⟩
  · exact absurd unresolved resolved
  · refine ⟨exception, ?_⟩
    rw [reconcileFile_loaded loaded]
    exact bind_raised refused _

/-- The records are settled unless a charge does not fit. -/
theorem reconcileFile_unresolved (loaded : loadRecords φ raw = .ok records.charges)
    (unresolved : records.Unresolved ledger tenant) (apply : Bool) :
    reconcileFile φ tenant raw apply nowNs ledger memory =
      if apply then
        match Store.applyChargesFor tenant nowNs records.charges ledger with
        | .error exception => ⟨.error exception, memory, []⟩
        | .ok after => ⟨.ok ⟨true, records.preview, Telemetry.budget ledger,
            Telemetry.budget after⟩, memory, [after]⟩
      else ⟨.ok ⟨false, records.preview, Telemetry.budget ledger, Telemetry.budget ledger⟩,
        memory, []⟩ := by
  rcases @preflight_eq μ tenant ledger memory records with ⟨-, accepted⟩ | ⟨resolved, -⟩
  · rw [reconcileFile_loaded loaded, bind_quiet accepted, readDurable_bind]
    cases apply with
    | false => rfl
    | true =>
        have imports := @reconcileManyFor_records μ tenant records nowNs ledger memory
        rw [checkUnresolvedFor_ok.mpr unresolved] at imports
        simp only [if_true]
        cases applied : Store.applyChargesFor tenant nowNs records.charges ledger with
        | error exception =>
            rw [applied] at imports
            exact bind_raised imports _
        | ok after =>
            rw [applied] at imports
            exact bind_committed imports _
  · exact absurd unresolved resolved

variable (φ) in
/-- What `reconcile_file` promises for a file. -/
structure FileReconciliation (tenant : PyStr) (raw : List UInt8) (nowNs : Ns) (ledger : Ledger)
    (memory : μ) : Prop where
  dry : ∃ value, reconcileFile φ tenant raw false nowNs ledger memory = ⟨value, memory, []⟩
  dryReport : ∀ report, (reconcileFile φ tenant raw false nowNs ledger memory).value = .ok report ↔
    ∃ records : ImportRecords, loadRecords φ raw = .ok records.charges ∧
      records.Unresolved ledger tenant ∧
      report = ⟨false, records.preview, Telemetry.budget ledger, Telemetry.budget ledger⟩
  applied : (∃ exception,
      reconcileFile φ tenant raw true nowNs ledger memory = ⟨.error exception, memory, []⟩) ∨
    ∃ (name : Name) (records : ImportRecords) (resolutions : List Resolution) (after : Ledger),
      PyStr.ofString name.text = tenant ∧ loadRecords φ raw = .ok records.charges ∧
      records.charges = resolutions.map Resolution.charge ∧
      Reconciled name nowNs ledger resolutions after ∧
      reconcileFile φ tenant raw true nowNs ledger memory =
        ⟨.ok ⟨true, records.preview, Telemetry.budget ledger, Telemetry.budget after⟩, memory,
          [after]⟩
  accepted : (reconcileFile φ tenant raw true nowNs ledger memory).value.isOk = true ↔
    (reconcileFile φ tenant raw false nowNs ledger memory).value.isOk = true ∧
      ∀ charges, loadRecords φ raw = .ok charges →
        ∀ charge ∈ charges, charge.actualMicrousd < 2 ^ 63

theorem ImportRecords.eq_of_charges {first second : ImportRecords}
    (same : first.charges = second.charges) : first = second := by
  cases first
  cases second
  simpa using same

theorem eq_of_loaded {first second : ImportRecords} (left : loadRecords φ raw = .ok first.charges)
    (right : loadRecords φ raw = .ok second.charges) : first = second :=
  ImportRecords.eq_of_charges (Except.ok.inj (left.symm.trans right))

/-- A file that is refused either way. -/
theorem fileReconciliation_refused
    (refused : ∀ apply, ∃ exception, reconcileFile φ tenant raw apply nowNs ledger memory =
      ⟨.error exception, memory, []⟩)
    (none : ∀ records : ImportRecords, loadRecords φ raw = .ok records.charges →
      ¬ records.Unresolved ledger tenant) :
    FileReconciliation φ tenant raw nowNs ledger memory := by
  obtain ⟨exception, dry⟩ := refused false
  obtain ⟨other, applied⟩ := refused true
  refine ⟨⟨_, dry⟩, ?_, .inl ⟨other, applied⟩, ?_⟩
  · intro report
    rw [dry]
    constructor
    · intro returned
      contradiction
    · rintro ⟨records, loaded, unresolved, -⟩
      exact absurd unresolved (none records loaded)
  · rw [dry, applied]
    simp [Except.isOk, Except.toBool]

/-- A file is settled as a whole or not at all, a dry run writes nothing, and it
lets pass what is then settled but for charges beyond 63 bits. -/
theorem reconcile_file_whole (tenant : PyStr) (raw : List UInt8) (nowNs : Ns) (ledger : Ledger)
    (memory : μ) : FileReconciliation φ tenant raw nowNs ledger memory := by
  cases loaded : loadRecords φ raw with
  | error exception =>
      apply fileReconciliation_refused fun apply => ⟨exception, reconcileFile_refused loaded apply⟩
      intro records found
      rw [loaded] at found
      contradiction
  | ok charges =>
      obtain ⟨records, rfl⟩ := loadRecords_import loaded
      by_cases unresolved : records.Unresolved ledger tenant
      · have outcome := @reconcileFile_unresolved φ _ μ tenant raw nowNs ledger memory records
          loaded unresolved
        have dry := outcome false
        have applied := outcome true
        simp only [Bool.false_eq_true, if_false] at dry
        simp only [if_true] at applied
        obtain ⟨charge, member⟩ := List.exists_mem_of_ne_nil _ records.nonempty
        obtain ⟨name, rfl⟩ := (unresolved charge member).name
        rw [Store.applyChargesFor_name] at applied
        refine ⟨⟨_, dry⟩, ?_, ?_, ?_⟩
        · intro report
          rw [dry, Except.ok.injEq]
          constructor
          · rintro rfl
            exact ⟨records, loaded, unresolved, rfl⟩
          · rintro ⟨other, found, -, rfl⟩
            rw [eq_of_loaded loaded found]
        · cases settled : Store.applyCharges name nowNs records.charges ledger with
          | error exception => exact .inl ⟨exception, by rw [applied, settled]⟩
          | ok after =>
              rw [← Store.applyChargesUnder_none] at settled
              obtain ⟨resolutions, same, reconciled⟩ :=
                Store.applyChargesUnder_ok records.distinct settled
              rw [Store.applyChargesUnder_none] at settled
              exact .inr ⟨name, records, resolutions, after, rfl, loaded, same, reconciled,
                by rw [applied, settled]⟩
        · rw [dry, applied]
          constructor
          · intro accepted
            refine ⟨rfl, ?_⟩
            intro charges found
            obtain rfl := Except.ok.inj (loaded.symm.trans found)
            cases settled : Store.applyCharges name nowNs records.charges ledger with
            | error exception => simp [settled, Except.isOk, Except.toBool] at accepted
            | ok after => exact (Store.applyCharges_ok records.distinct settled).1
          · rintro ⟨-, bounded⟩
            obtain ⟨after, settled⟩ := Store.applyCharges_total nowNs records.distinct
              (bounded _ loaded) unresolved
            rw [settled]
            rfl
      · apply fileReconciliation_refused fun apply => reconcileFile_resolved loaded unresolved apply
        intro other found
        rwa [← eq_of_loaded loaded found]

end

end AgminaRuntime
