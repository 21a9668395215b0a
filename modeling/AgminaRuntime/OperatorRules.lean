import AgminaRuntime.StoreRules

/-!
# Rules for the operator

Reconciling charges, releasing a pool and extending the budget.  All three run
offline, and the first two also beside a live coordinator.
-/

namespace AgminaRuntime

open Durable Durable.Program Keyed

variable {μ : Type} {ledger : Ledger} {memory : μ} {normal : Unit → Ledger → μ → Prop}
  {raised : PyExc → Ledger → μ → Prop}

theorem wp_releasePool (pool : Name) (evidence : PyStr) (nowNs : Ns)
    (returns : normal () ((ledger.releaseQuarantine pool).note nowNs (.poolReleased pool evidence))
      memory)
    (refuses : raised (.valueError "Require evidence of backend termination/restart") ledger
      memory) :
    wp (Store.releasePool pool evidence nowNs) (Commit (.operator (some pool))) normal raised
      ledger memory := by
  simp only [Store.releasePool, wp_ite, wp_raise, wp_bind, wp_commit, wp_event]
  split
  · exact refuses
  · exact ⟨.release pool, .note _ _, returns⟩

theorem wp_extendBudget (maxAttempts maxMicrousd : Int) (approvalRef : PyStr) (nowNs : Ns) :
    wp (Store.extendBudget maxAttempts maxMicrousd approvalRef nowNs) (Commit (.operator none))
      (fun _ _ _ => True) (fun _ _ _ => True) ledger memory := by
  simp only [Store.extendBudget, wp_bind, wp_readDurable, wp_ite, wp_raise, wp_commit, wp_event]
  split
  · trivial
  · rename_i permitted
    simp only [not_or, not_lt] at permitted
    exact ⟨.extendBudget _ _ (by omega) (by omega), .note _ _, trivial⟩

/-! ## Reconciliation -/

theorem checkEntries_error {entries : List (PyValue × PyValue × PyValue)} {seen : List PyStr}
    {exception : PyExc} (failed : Store.checkEntries entries seen = .error exception) :
    exception = Store.malformedEntry := by
  induction entries generalizing seen with
  | nil => simp [Store.checkEntries] at failed
  | cons entry rest ih =>
      unfold Store.checkEntries at failed
      split at failed
      · contradiction
      · split at failed
        · exact (Except.error.inj failed).symm
        · split at failed
          · rename_i same _ _ _ restFailed
            rw [List.cons.injEq] at same
            rw [Except.error.injEq] at failed
            subst failed
            rw [← same.2] at restFailed
            exact ih restFailed
          · contradiction
      · exact (Except.error.inj failed).symm

/-- Every charge comes from the entry that names its job. -/
theorem checkEntries_named {entries : List (PyValue × PyValue × PyValue)} {seen : List PyStr}
    {charges : List Charge} (checked : Store.checkEntries entries seen = .ok charges) :
    ∀ charge ∈ charges, ∃ entry ∈ entries, entry.1 = .str charge.job := by
  induction entries generalizing seen charges with
  | nil =>
      simp only [Store.checkEntries, Except.ok.injEq] at checked
      simp [← checked]
  | cons entry rest ih =>
      unfold Store.checkEntries at checked
      split at checked
      · contradiction
      · rename_i job actual evidence others same
        split at checked
        · contradiction
        · split at checked
          · contradiction
          · rename_i laterCharges restChecked
            rw [List.cons.injEq] at same
            obtain ⟨rfl, rfl⟩ := same
            rw [Except.ok.injEq] at checked
            subst checked
            intro charge member
            rcases List.mem_cons.mp member with rfl | later
            · exact ⟨_, List.mem_cons_self, rfl⟩
            · obtain ⟨named, namedMember, sameJob⟩ := ih restChecked charge later
              exact ⟨named, List.mem_cons_of_mem _ namedMember, sameJob⟩
      · contradiction

/-- The exceptions of the two later passes. -/
def ImportRefused (exception : PyExc) : Prop :=
  exception = .unicodeEncodeError ∨ exception = .overflowError ∨
    ∃ text, exception = .valueError text

theorem findAttempt_error {tenant : Name} {job : PyStr} {exception : PyExc}
    (failed : Store.findAttempt ledger tenant job = .error exception) :
    ImportRefused exception := by
  unfold Store.findAttempt at failed
  split at failed
  · exact .inl (Except.error.inj failed).symm
  · contradiction

theorem checkUnresolved_error {tenant : Name} {charges : List Charge} {exception : PyExc}
    (failed : Store.checkUnresolved ledger tenant charges = .error exception) :
    ImportRefused exception := by
  induction charges with
  | nil => simp [Store.checkUnresolved] at failed
  | cons charge rest ih =>
      unfold Store.checkUnresolved at failed
      split at failed
      · rename_i found
        rw [Except.error.injEq] at failed
        subst failed
        exact findAttempt_error found
      · exact .inr (.inr ⟨_, (Except.error.inj failed).symm⟩)
      · split at failed
        · exact .inr (.inr ⟨_, (Except.error.inj failed).symm⟩)
        · exact ih failed

theorem applyCharges_error {tenant : Name} {nowNs : Ns} {charges : List Charge}
    {before : Ledger} {exception : PyExc}
    (failed : Store.applyCharges tenant nowNs charges before = .error exception) :
    ImportRefused exception := by
  induction charges generalizing before with
  | nil => simp [Store.applyCharges] at failed
  | cons charge rest ih =>
      unfold Store.applyCharges at failed
      split at failed
      · split at failed
        · rename_i found
          rw [Except.error.injEq] at failed
          subst failed
          exact findAttempt_error found
        · exact .inr (.inr ⟨_, (Except.error.inj failed).symm⟩)
        · split at failed
          · exact .inr (.inr ⟨_, (Except.error.inj failed).symm⟩)
          · exact ih failed
      · exact .inr (.inl (Except.error.inj failed).symm)

/-- An import either commits all of its charges in one transaction or commits
nothing. -/
theorem wp_reconcileMany (tenant : Name) (entries : List (PyValue × PyValue × PyValue))
    (nowNs : Ns)
    (returns : ∀ charges after, Store.checkEntries entries [] = .ok charges →
      Store.applyCharges tenant nowNs charges ledger = .ok after → normal () after memory)
    (refuses : ∀ exception, ImportRefused exception → raised exception ledger memory) :
    wp (Store.reconcileMany tenant entries nowNs) (Commit (.operator none)) normal raised
      ledger memory := by
  simp only [Store.reconcileMany, wp_bind, wp_ofExcept]
  split
  · rename_i charges checked
    simp only [wp_bind, wp_readDurable, wp_ofExcept]
    split
    · rw [wp_transaction]
      split
      · rename_i after applied
        exact ⟨.reconcile applied, returns charges after checked applied⟩
      · rename_i exception failed
        exact refuses exception (applyCharges_error failed)
    · rename_i exception failed
      exact refuses exception (checkUnresolved_error failed)
  · rename_i exception failed
    exact refuses exception (.inr (.inr ⟨_, checkEntries_error failed⟩))

end AgminaRuntime
