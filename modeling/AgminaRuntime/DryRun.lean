import AgminaRuntime.BatchReconciliation
import AgminaRuntime.Campaign
import AgminaRuntime.ChargeRecords

/-!
# A dry run of an import

`preflight` looks every record up before an import and reports what the import
would charge.  It does not see one limit of the journal: SQLite holds no
integer beyond 63 bits.
-/

namespace AgminaRuntime

open Durable Durable.Program Keyed

/-- What `preflight` returns. -/
structure PreflightReport where
  records : Nat
  chargeMicrousd : Nat
  jobIds : List PyStr
  deriving DecidableEq

namespace Store

variable {μ : Type}

/-- `SELECT ... FROM attempts WHERE tenant=? AND job=?` with raw text for both. -/
def selectAttempt (ledger : Ledger) (tenant job : PyStr) : Except PyExc (Option Attempt) :=
  if tenant.points.any PyStr.isSurrogate ∨ job.points.any PyStr.isSurrogate then
    .error .unicodeEncodeError
  else .ok (ledger.attempts.rows.find? fun attempt =>
    PyStr.ofString attempt.tenant.text = tenant ∧ PyStr.ofString attempt.job.text = job)

/-- Both existence passes: that of `preflight` and that of `reconcile_many`. -/
def checkUnresolvedFor (ledger : Ledger) (tenant : PyStr) : List Charge → Except PyExc Unit
  | [] => .ok ()
  | charge :: rest =>
      match selectAttempt ledger tenant charge.job with
      | .error exception => .error exception
      | .ok none => .error (.valueError ("Unknown reconciliation job: " ++ charge.job))
      | .ok (some attempt) =>
          if attempt.actual.isSome then
            .error (.valueError ("Attempt is already settled: " ++ charge.job))
          else checkUnresolvedFor ledger tenant rest

/-- `preflight(store, tenant, records)` -/
def preflight (tenant : PyStr) (records : List Charge) : LedgerProgram μ PreflightReport := do
  if tenant.length = 0 then
    raise (.valueError "A tenant is required")
  else if ¬ (records.map Charge.job).Nodup then
    raise (.valueError "Reconciliation import contains duplicate job IDs")
  else do
    let ledger ← readDurable
    ofExcept (checkUnresolvedFor ledger tenant records)
    pure ⟨records.length, (records.map Charge.actualMicrousd).sum, records.map Charge.job⟩

/-- The transaction of `reconcile_many` for a tenant given as raw text. -/
def applyChargesFor (tenant : PyStr) (nowNs : Ns) : List Charge → Ledger → Except PyExc Ledger
  | [], ledger => .ok ledger
  | charge :: rest, ledger =>
      if bounded : charge.actualMicrousd < 2 ^ 63 then
        match selectAttempt ledger tenant charge.job with
        | .error exception => .error exception
        | .ok none =>
            .error (.valueError ("Attempt changed before reconciliation: " ++ charge.job))
        | .ok (some attempt) =>
            if attempt.actual.isSome then
              .error (.valueError ("Attempt changed before reconciliation: " ++ charge.job))
            else
              applyChargesFor tenant nowNs rest
                ((ledger.settleAttempt attempt.key (some ⟨charge.actualMicrousd, bounded⟩)).note
                  nowNs (.chargeReconciled attempt.job ⟨charge.actualMicrousd, bounded⟩
                    charge.evidenceRef))
      else .error .overflowError

/-- `reconcile_many(tenant, entries, now_ns)` for a tenant given as raw text. -/
def reconcileManyFor (tenant : PyStr) (entries : List (PyValue × PyValue × PyValue))
    (nowNs : Ns) : LedgerProgram μ Unit := do
  let charges ← ofExcept (checkEntries entries [])
  let ledger ← readDurable
  ofExcept (checkUnresolvedFor ledger tenant charges)
  transaction (applyChargesFor tenant nowNs charges)

/-! ## A tenant that the journal can know -/

theorem any_isSurrogate_ofString (text : String) :
    (PyStr.ofString text).points.any PyStr.isSurrogate = false := by
  rw [PyStr.ofString_eq]
  simp only [PyStr.ofChars, List.any_map, List.any_eq_false]
  intro char _
  simp [PyStr.isSurrogate_pointOf]

theorem ofString_injective {first second : String}
    (same : PyStr.ofString first = PyStr.ofString second) : first = second := by
  have chars := congrArg PyStr.chars same
  rw [PyStr.ofString_eq, PyStr.ofString_eq, PyStr.chars_ofChars, PyStr.chars_ofChars,
    Option.some.injEq] at chars
  exact String.toList_inj.mp chars

theorem selectAttempt_name (ledger : Ledger) (tenant : Name) (job : PyStr) :
    selectAttempt ledger (PyStr.ofString tenant.text) job = findAttempt ledger tenant job := by
  have sameTenant : ∀ attempt : Attempt,
      PyStr.ofString attempt.tenant.text = PyStr.ofString tenant.text ↔
        attempt.tenant = tenant :=
    fun attempt => ⟨fun same => Name.eq_of_text (ofString_injective same), fun same => by rw [same]⟩
  simp only [selectAttempt, findAttempt, any_isSurrogate_ofString, Bool.false_eq_true, false_or,
    sameTenant]

theorem checkUnresolvedFor_name (ledger : Ledger) (tenant : Name) (charges : List Charge) :
    checkUnresolvedFor ledger (PyStr.ofString tenant.text) charges =
      checkUnresolved ledger tenant charges := by
  induction charges with
  | nil => rfl
  | cons charge rest ih =>
      rw [checkUnresolvedFor, checkUnresolved, selectAttempt_name]
      cases findAttempt ledger tenant charge.job with
      | error exception => rfl
      | ok found =>
          cases found with
          | none => rfl
          | some attempt =>
              dsimp only
              rw [ih]

theorem applyChargesFor_name (tenant : Name) (nowNs : Ns) (charges : List Charge)
    (ledger : Ledger) :
    applyChargesFor (PyStr.ofString tenant.text) nowNs charges ledger =
      applyCharges tenant nowNs charges ledger := by
  induction charges generalizing ledger with
  | nil => rfl
  | cons charge rest ih =>
      rw [applyChargesFor, applyCharges, selectAttempt_name]
      split
      · cases findAttempt ledger tenant charge.job with
        | error exception => rfl
        | ok found =>
            cases found with
            | none => rfl
            | some attempt =>
                dsimp only
                rw [ih]
      · rfl

/-- For a tenant of the journal this is the import that the coordinator and the
operator use. -/
theorem reconcileManyFor_name (tenant : Name) (entries : List (PyValue × PyValue × PyValue))
    (nowNs : Ns) :
    (reconcileManyFor (PyStr.ofString tenant.text) entries nowNs : LedgerProgram μ Unit) =
      reconcileMany tenant entries nowNs := by
  have applied : ∀ charges, applyChargesFor (PyStr.ofString tenant.text) nowNs charges =
      applyCharges tenant nowNs charges :=
    fun charges => funext fun ledger => applyChargesFor_name tenant nowNs charges ledger
  simp only [reconcileManyFor, reconcileMany, checkUnresolvedFor_name, applied]

/-! ## Which attempt is found -/

variable {ledger : Ledger} {tenant : Name}

theorem findAttempt_iff {job : PyStr} {attempt : Attempt} :
    findAttempt ledger tenant job = .ok (some attempt) ↔
      ledger.attempts.lookup (tenant, attempt.job) = some attempt ∧
        PyStr.ofString attempt.job.text = job := by
  constructor
  · intro found
    obtain ⟨stored, rfl, named⟩ := findAttempt_some found
    exact ⟨stored, named⟩
  · rintro ⟨stored, rfl⟩
    have key : attempt.key = (tenant, attempt.job) := Table.key_of_lookup stored
    rw [findAttempt, if_neg (by simp [any_isSurrogate_ofString]), Except.ok.injEq,
      List.find?_eq_some_iff_append]
    obtain ⟨before, after, split⟩ := List.append_of_mem (Table.mem_of_lookup stored)
    refine ⟨by simpa using (Prod.mk.inj key).1, before, after, split, ?_⟩
    intro other member
    simp only [Bool.not_eq_true', decide_eq_false_iff_not, not_and]
    intro sameTenant sameJob
    have sameKey : other.key = attempt.key := by
      rw [key, ← sameTenant, ← Name.eq_of_text (ofString_injective sameJob)]
      rfl
    have distinct := ledger.attempts.distinct
    rw [split, List.map_append, List.map_cons] at distinct
    apply List.disjoint_of_nodup_append distinct (List.mem_map_of_mem member)
    rw [sameKey]
    exact List.mem_cons_self

/-- The attempt of a record that its tenant still has to settle. -/
def Unresolved (ledger : Ledger) (tenant : PyStr) (charge : Charge) : Prop :=
  ∃ attempt ∈ ledger.attempts.rows, PyStr.ofString attempt.tenant.text = tenant ∧
    PyStr.ofString attempt.job.text = charge.job ∧ attempt.actual = none

theorem Unresolved.name {tenant : PyStr} {charge : Charge}
    (unresolved : Unresolved ledger tenant charge) :
    ∃ name : Name, PyStr.ofString name.text = tenant := by
  obtain ⟨attempt, -, named, -⟩ := unresolved
  exact ⟨attempt.tenant, named⟩

theorem unresolved_name {charge : Charge} :
    Unresolved ledger (PyStr.ofString tenant.text) charge ↔
      ∃ attempt, findAttempt ledger tenant charge.job = .ok (some attempt) ∧
        attempt.actual = none := by
  simp only [findAttempt_iff]
  constructor
  · rintro ⟨attempt, member, sameTenant, named, open_⟩
    refine ⟨attempt, ⟨?_, named⟩, open_⟩
    rw [← Name.eq_of_text (ofString_injective sameTenant)]
    exact Table.lookup_of_mem member
  · rintro ⟨attempt, ⟨stored, named⟩, open_⟩
    have key : attempt.key = (tenant, attempt.job) := Table.key_of_lookup stored
    refine ⟨attempt, Table.mem_of_lookup stored, ?_, named, open_⟩
    rw [← (Prod.mk.inj key).1]

theorem checkUnresolved_ok {charges : List Charge} :
    checkUnresolved ledger tenant charges = .ok () ↔
      ∀ charge ∈ charges, Unresolved ledger (PyStr.ofString tenant.text) charge := by
  induction charges with
  | nil => simp [checkUnresolved]
  | cons charge rest ih =>
      rw [List.forall_mem_cons, unresolved_name, ← ih, checkUnresolved]
      cases found : findAttempt ledger tenant charge.job with
      | error exception => simp
      | ok result =>
          cases result with
          | none => simp
          | some attempt => cases open_ : attempt.actual <;> simp [open_]

/-- A tenant that the journal does not know has nothing to settle. -/
theorem checkUnresolvedFor_foreign {ledger : Ledger} {tenant : PyStr} {charges : List Charge}
    (foreign : ∀ name : Name, PyStr.ofString name.text ≠ tenant) (nonempty : charges ≠ []) :
    ∃ exception, checkUnresolvedFor ledger tenant charges = .error exception := by
  cases charges with
  | nil => contradiction
  | cons charge rest =>
      have nothing : ledger.attempts.rows.find? (fun attempt =>
          PyStr.ofString attempt.tenant.text = tenant ∧
            PyStr.ofString attempt.job.text = charge.job) = none := by
        apply List.find?_eq_none.mpr
        intro attempt _
        simp [foreign attempt.tenant]
      rw [checkUnresolvedFor, selectAttempt, nothing]
      by_cases surrogate : tenant.points.any PyStr.isSurrogate = true ∨
          charge.job.points.any PyStr.isSurrogate = true
      · exact ⟨_, by rw [if_pos surrogate]⟩
      · exact ⟨_, by rw [if_neg surrogate]⟩

/-- Charges within 63 bits for unresolved attempts can all be applied. -/
theorem applyCharges_total {charges : List Charge} (nowNs : Ns)
    (distinct : (charges.map Charge.job).Nodup)
    (bounded : ∀ charge ∈ charges, charge.actualMicrousd < 2 ^ 63)
    (unresolved : ∀ charge ∈ charges, Unresolved ledger (PyStr.ofString tenant.text) charge) :
    ∃ after, applyCharges tenant nowNs charges ledger = .ok after := by
  induction charges generalizing ledger with
  | nil => exact ⟨ledger, rfl⟩
  | cons charge rest ih =>
      rw [List.map_cons, List.nodup_cons] at distinct
      obtain ⟨first, later⟩ := List.forall_mem_cons.mp bounded
      obtain ⟨here, others⟩ := List.forall_mem_cons.mp unresolved
      obtain ⟨attempt, found, open_⟩ := unresolved_name.mp here
      obtain ⟨stored, named⟩ := findAttempt_iff.mp found
      have key : attempt.key = (tenant, attempt.job) := Table.key_of_lookup stored
      rw [applyCharges, dif_pos first, found]
      simp only [open_, Option.isSome_none, Bool.false_eq_true, if_false]
      apply ih distinct.2 later
      intro other member
      obtain ⟨next, nextFound, nextOpen⟩ := unresolved_name.mp (others other member)
      obtain ⟨nextStored, nextNamed⟩ := findAttempt_iff.mp nextFound
      apply unresolved_name.mpr
      refine ⟨next, findAttempt_iff.mpr ⟨?_, nextNamed⟩, nextOpen⟩
      have apart : (tenant, next.job) ≠ attempt.key := by
        rw [key]
        intro same
        apply distinct.1
        rw [← named, ← (Prod.mk.inj same).2, nextNamed]
        exact List.mem_map_of_mem member
      have moved : (ledger.settleAttempt attempt.key (some ⟨charge.actualMicrousd, first⟩)
          ).attempts.lookup (tenant, next.job) = _ := ledger.lookup_settleAttempt
      rw [if_neg apart, nextStored] at moved
      exact moved

/-- Charges that are applied are within 63 bits, and the known charges grow by
their sum. -/
theorem applyCharges_ok {after : Ledger} {charges : List Charge} {nowNs : Ns}
    (distinct : (charges.map Charge.job).Nodup)
    (applied : applyCharges tenant nowNs charges ledger = .ok after) :
    (∀ charge ∈ charges, charge.actualMicrousd < 2 ^ 63) ∧
      after.knownMicrousd = ledger.knownMicrousd + (charges.map Charge.actualMicrousd).sum := by
  rw [← applyChargesUnder_none] at applied
  obtain ⟨resolutions, rfl, reconciled⟩ := applyChargesUnder_ok distinct applied
  constructor
  · intro charge member
    obtain ⟨resolution, -, rfl⟩ := List.mem_map.mp member
    exact resolution.actual.isLt
  · rw [reconciled.known, List.map_map]
    rfl

/-- Records that `_record` lets pass also pass the checks of `reconcile_many`. -/
theorem checkEntries_wellFormed {charges : List Charge} {seen : List PyStr}
    (wellFormed : ∀ charge ∈ charges, charge.WellFormed)
    (distinct : (charges.map Charge.job).Nodup) (unseen : ∀ charge ∈ charges, charge.job ∉ seen) :
    checkEntries (charges.map fun charge =>
      (.str charge.job, .int charge.actualMicrousd, .str charge.evidenceRef)) seen =
        .ok charges := by
  induction charges generalizing seen with
  | nil => rfl
  | cons charge rest ih =>
      rw [List.map_cons, List.nodup_cons] at distinct
      obtain ⟨first, later⟩ := List.forall_mem_cons.mp wellFormed
      obtain ⟨fresh, others⟩ := List.forall_mem_cons.mp unseen
      have restUnseen : ∀ other ∈ rest, other.job ∉ charge.job :: seen := by
        intro other member
        rw [List.mem_cons, not_or]
        refine ⟨fun same => distinct.1 ?_, others other member⟩
        rw [← same]
        exact List.mem_map_of_mem member
      rw [List.map_cons, checkEntries, if_neg, ih later distinct.2 restUnseen]
      · simp
      · have job := first.job
        have evidence := first.evidence
        simp only [not_or]
        exact ⟨job.1, by omega, fresh, by omega, evidence.1, by omega⟩

end Store

/-! ## The dry run and the import -/

section

variable {μ : Type} {tenant : PyStr} {records : ImportRecords} {nowNs : Ns} {ledger : Ledger}
  {memory : μ}

/-- What the import of records does. -/
theorem reconcileManyFor_records :
    Store.reconcileManyFor tenant records.entries nowNs ledger memory =
      match Store.checkUnresolvedFor ledger tenant records.charges with
      | .error exception => ⟨.error exception, memory, []⟩
      | .ok () =>
          match Store.applyChargesFor tenant nowNs records.charges ledger with
          | .error exception => ⟨.error exception, memory, []⟩
          | .ok after => ⟨.ok (), memory, [after]⟩ := by
  have checked : Store.checkEntries records.entries [] = .ok records.charges :=
    Store.checkEntries_wellFormed records.wellFormed records.distinct (by simp)
  simp only [Store.reconcileManyFor, ofExcept_bind, readDurable_bind, checked]
  cases Store.checkUnresolvedFor ledger tenant records.charges with
  | error exception => rfl
  | ok =>
      simp only [transaction]
      cases Store.applyChargesFor tenant nowNs records.charges ledger <;> rfl

end

/-- A dry run tells the truth: it changes nothing; what it lets pass is then
imported and adds the charge that it has reported, and what it refuses is
refused. -/
structure DryRunHolds {μ : Type} (tenant : PyStr) (records : ImportRecords) (nowNs : Ns)
    (ledger : Ledger) (memory : μ) : Prop where
  unchanged : (Store.preflight tenant records.charges ledger memory).commits = [] ∧
    (Store.preflight tenant records.charges ledger memory).volatile = memory
  imported : ∀ report, (Store.preflight tenant records.charges ledger memory).value = .ok report →
    let outcome := Store.reconcileManyFor tenant records.entries nowNs ledger memory
    outcome.value = .ok () ∧
      (outcome.durable ledger).knownMicrousd = ledger.knownMicrousd + report.chargeMicrousd
  refused : ∀ exception,
    (Store.preflight tenant records.charges ledger memory).value = .error exception →
      ∃ other, (Store.reconcileManyFor tenant records.entries nowNs ledger memory).value =
        .error other

section

variable {μ : Type} {tenant : PyStr} {records : ImportRecords} {nowNs : Ns} {ledger : Ledger}
  {memory : μ}

/-- What a dry run does. -/
theorem preflight_records :
    Store.preflight tenant records.charges ledger memory =
      if tenant.length = 0 then ⟨.error (.valueError "A tenant is required"), memory, []⟩
      else
        match Store.checkUnresolvedFor ledger tenant records.charges with
        | .error exception => ⟨.error exception, memory, []⟩
        | .ok () =>
            ⟨.ok ⟨records.charges.length, (records.charges.map Charge.actualMicrousd).sum,
              records.charges.map Charge.job⟩, memory, []⟩ := by
  simp only [Store.preflight, records.distinct, not_true_eq_false, if_false]
  split
  · rfl
  · simp only [readDurable_bind, ofExcept_bind]
    cases Store.checkUnresolvedFor ledger tenant records.charges <;> rfl

theorem preflight_unchanged :
    (Store.preflight tenant records.charges ledger memory).commits = [] ∧
      (Store.preflight tenant records.charges ledger memory).volatile = memory := by
  rw [preflight_records]
  split
  · exact ⟨rfl, rfl⟩
  · split <;> exact ⟨rfl, rfl⟩

theorem length_ofString_name (name : Name) : (PyStr.ofString name.text).length ≠ 0 := by
  have valid := name.valid
  intro empty
  have none_ : name.text.toList = [] := by
    simpa [PyStr.ofString, PyStr.length] using empty
  simp [isName, none_] at valid

/-- A dry run that refuses some record is followed by a refused import. -/
theorem dryRunHolds_of_refused {charge : Charge} (member : charge ∈ records.charges)
    (refused : ¬ Store.Unresolved ledger tenant charge) :
    DryRunHolds tenant records nowNs ledger memory := by
  obtain ⟨exception, unresolved⟩ : ∃ exception,
      Store.checkUnresolvedFor ledger tenant records.charges = .error exception := by
    by_cases known : ∃ name : Name, PyStr.ofString name.text = tenant
    · obtain ⟨name, rfl⟩ := known
      rw [Store.checkUnresolvedFor_name]
      cases checked : Store.checkUnresolved ledger name records.charges with
      | error exception => exact ⟨exception, rfl⟩
      | ok => exact absurd (Store.checkUnresolved_ok.mp checked charge member) refused
    · exact Store.checkUnresolvedFor_foreign (not_exists.mp known) records.nonempty
  refine ⟨preflight_unchanged, ?_, ?_⟩
  · intro report accepted
    rw [preflight_records, unresolved] at accepted
    split at accepted <;> contradiction
  · intro _ _
    rw [reconcileManyFor_records, unresolved]
    exact ⟨exception, rfl⟩

/-- When every record is unresolved the dry run accepts them. -/
theorem preflight_accepts
    (unresolved : ∀ charge ∈ records.charges, Store.Unresolved ledger tenant charge) :
    (Store.preflight tenant records.charges ledger memory).value =
      .ok ⟨records.charges.length, (records.charges.map Charge.actualMicrousd).sum,
        records.charges.map Charge.job⟩ := by
  obtain ⟨charge, member⟩ := List.exists_mem_of_ne_nil _ records.nonempty
  obtain ⟨name, rfl⟩ := (unresolved charge member).name
  rw [preflight_records, if_neg (length_ofString_name name), Store.checkUnresolvedFor_name,
    Store.checkUnresolved_ok.mpr unresolved]

/-- When every record is unresolved the import is carried out exactly when each
charge is within 63 bits. -/
theorem dryRunHolds_of_unresolved
    (unresolved : ∀ charge ∈ records.charges, Store.Unresolved ledger tenant charge) :
    DryRunHolds tenant records nowNs ledger memory ↔
      ∀ charge ∈ records.charges, charge.actualMicrousd < 2 ^ 63 := by
  have accepts := @preflight_accepts μ tenant records ledger memory unresolved
  obtain ⟨charge, member⟩ := List.exists_mem_of_ne_nil _ records.nonempty
  obtain ⟨name, rfl⟩ := (unresolved charge member).name
  have imports := @reconcileManyFor_records μ (PyStr.ofString name.text) records nowNs ledger memory
  rw [Store.checkUnresolvedFor_name, Store.checkUnresolved_ok.mpr unresolved] at imports
  simp only [Store.applyChargesFor_name] at imports
  constructor
  · intro holds
    have imported := (holds.imported _ accepts).1
    rw [imports] at imported
    split at imported
    · contradiction
    · rename_i after applied
      exact (Store.applyCharges_ok records.distinct applied).1
  · intro bounded
    obtain ⟨after, applied⟩ := Store.applyCharges_total nowNs records.distinct bounded unresolved
    rw [applied] at imports
    refine ⟨preflight_unchanged, ?_, ?_⟩
    · intro report accepted
      rw [accepts, Except.ok.injEq] at accepted
      rw [imports, ← accepted]
      exact ⟨rfl, (Store.applyCharges_ok records.distinct applied).2⟩
    · intro exception refused
      rw [accepts] at refused
      contradiction

end

/-- A dry run tells the truth exactly when every charge is within 63 bits or some
record has nothing to settle. -/
theorem dry_run_truthful_iff {μ : Type} (tenant : PyStr) (records : ImportRecords) (nowNs : Ns)
    (ledger : Ledger) (memory : μ) :
    DryRunHolds tenant records nowNs ledger memory ↔
      (∀ charge ∈ records.charges, charge.actualMicrousd < 2 ^ 63) ∨
        ∃ charge ∈ records.charges, ¬ Store.Unresolved ledger tenant charge := by
  by_cases refused : ∃ charge ∈ records.charges, ¬ Store.Unresolved ledger tenant charge
  · obtain ⟨charge, member, settled⟩ := refused
    exact iff_of_true (dryRunHolds_of_refused member settled) (.inr ⟨charge, member, settled⟩)
  · rw [or_iff_left refused]
    simp only [not_exists, not_and, not_not] at refused
    exact dryRunHolds_of_unresolved refused

namespace Sample

/-- A charge for the job in flight, one beyond what SQLite can hold. -/
def largeCharge : ImportRecords where
  charges := [⟨PyStr.ofString "job", 2 ^ 63, PyStr.ofString "invoice"⟩]
  wellFormed := by
    intro charge member
    rw [List.mem_singleton] at member
    subst member
    exact ⟨by decide, by decide, by decide⟩
  nonempty := by simp
  bounded := by decide
  distinct := by simp

end Sample

theorem dry_run_hides_overflow :
    let ledger := ((Campaign.fresh Sample.config.caps).run Sample.sending).ledger
    ¬ DryRunHolds (PyStr.ofString "lab") Sample.largeCharge 20 ledger () := by
  intro ledger
  rw [dryRunHolds_of_unresolved]
  · simp [Sample.largeCharge]
  · simp only [Sample.largeCharge, List.forall_mem_singleton, Store.Unresolved]
    decide +kernel

end AgminaRuntime
