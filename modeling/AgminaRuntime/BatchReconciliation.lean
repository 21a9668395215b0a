import AgminaRuntime.OperatorRules

/-!
# Batch reconciliation

An import is checked in two passes over its entries before the transaction
that settles them.  SQLite may still fail at any statement, before the
transaction and in the middle of it, and then nothing of the batch is left.
-/

namespace AgminaRuntime

open Durable Durable.Program Keyed

/-- The statements of an import, with the number of entries after the one that
they are for. -/
inductive ImportStatement
  | select (left : Nat)
  | update (left : Nat)
  | insert (left : Nat)
  | commit
  deriving DecidableEq

/-- The statements at which SQLite raises. -/
abbrev ImportFaults := ImportStatement → Option PyExc

namespace Store

variable {μ : Type}

/-- Execute a statement that SQLite may refuse. -/
def execute {α : Type} (faults : ImportFaults) (statement : ImportStatement)
    (body : Except PyExc α) : Except PyExc α :=
  match faults statement with
  | some exception => .error exception
  | none => body

/-- The existence pass of `reconcile_many`. -/
def checkUnresolvedUnder (faults : ImportFaults) (ledger : Ledger) (tenant : Name) :
    List Charge → Except PyExc Unit
  | [] => .ok ()
  | charge :: rest =>
      match execute faults (.select rest.length) (findAttempt ledger tenant charge.job) with
      | .error exception => .error exception
      | .ok none => .error (.valueError ("Unknown reconciliation job: " ++ charge.job))
      | .ok (some attempt) =>
          if attempt.actual.isSome then
            .error (.valueError ("Attempt is already settled: " ++ charge.job))
          else checkUnresolvedUnder faults ledger tenant rest

/-- `UPDATE attempts SET actual=?,disposition='settled' WHERE ... AND actual IS NULL`,
with the attempt that it has changed. -/
def settleUnresolved (ledger : Ledger) (tenant : Name) (charge : Charge) :
    Except PyExc (Option (Ledger × Name × Ns)) :=
  if bounded : charge.actualMicrousd < 2 ^ 63 then
    match findAttempt ledger tenant charge.job with
    | .error exception => .error exception
    | .ok none => .ok none
    | .ok (some attempt) =>
        if attempt.actual.isSome then .ok none
        else .ok (some (ledger.settleAttempt attempt.key (some ⟨charge.actualMicrousd, bounded⟩),
          attempt.job, ⟨charge.actualMicrousd, bounded⟩))
  else .error .overflowError

/-- The body of the `with self.db:` block of `reconcile_many`. -/
def applyChargesUnder (faults : ImportFaults) (tenant : Name) (nowNs : Ns) :
    List Charge → Ledger → Except PyExc Ledger
  | [], ledger => execute faults .commit (.ok ledger)
  | charge :: rest, ledger =>
      match execute faults (.update rest.length) (settleUnresolved ledger tenant charge) with
      | .error exception => .error exception
      | .ok none =>
          .error (.valueError ("Attempt changed before reconciliation: " ++ charge.job))
      | .ok (some (settled, job, actual)) =>
          match execute faults (.insert rest.length)
            (.ok (settled.note nowNs (.chargeReconciled job actual charge.evidenceRef))) with
          | .error exception => .error exception
          | .ok noted => applyChargesUnder faults tenant nowNs rest noted

/-- `reconcile_many` over a database that may raise. -/
def reconcileManyUnder (faults : ImportFaults) (tenant : Name)
    (entries : List (PyValue × PyValue × PyValue)) (nowNs : Ns) : LedgerProgram μ Unit := do
  let charges ← ofExcept (checkEntries entries [])
  let ledger ← readDurable
  ofExcept (checkUnresolvedUnder faults ledger tenant charges)
  transaction (applyChargesUnder faults tenant nowNs charges)

/-! ## A database that does not raise -/

theorem checkUnresolvedUnder_none (ledger : Ledger) (tenant : Name) (charges : List Charge) :
    checkUnresolvedUnder (fun _ => none) ledger tenant charges =
      checkUnresolved ledger tenant charges := by
  induction charges with
  | nil => rfl
  | cons charge rest ih =>
      cases found : findAttempt ledger tenant charge.job with
      | error exception => simp only [checkUnresolvedUnder, checkUnresolved, execute, found]
      | ok attempt =>
          cases attempt <;>
            simp only [checkUnresolvedUnder, checkUnresolved, execute, found, ih]

theorem applyChargesUnder_none (tenant : Name) (nowNs : Ns) (charges : List Charge)
    (ledger : Ledger) :
    applyChargesUnder (fun _ => none) tenant nowNs charges ledger =
      applyCharges tenant nowNs charges ledger := by
  induction charges generalizing ledger with
  | nil => rfl
  | cons charge rest ih =>
      simp only [applyChargesUnder, applyCharges, execute, settleUnresolved]
      by_cases bounded : charge.actualMicrousd < 2 ^ 63
      · simp only [dif_pos bounded]
        cases findAttempt ledger tenant charge.job with
        | error exception => rfl
        | ok found =>
            cases found with
            | none => rfl
            | some attempt =>
                dsimp only
                by_cases settled : attempt.actual.isSome = true
                · simp only [if_pos settled]
                · simp only [if_neg settled]
                  exact ih _
      · simp only [dif_neg bounded]

/-- The journal that the coordinator and the operator use is the one of a
database that raises nowhere. -/
theorem reconcileManyUnder_none (tenant : Name) (entries : List (PyValue × PyValue × PyValue))
    (nowNs : Ns) :
    (reconcileManyUnder (fun _ => none) tenant entries nowNs : LedgerProgram μ Unit) =
      reconcileMany tenant entries nowNs := by
  have applied : ∀ charges, applyChargesUnder (fun _ => none) tenant nowNs charges =
      applyCharges tenant nowNs charges :=
    fun charges => funext fun ledger => applyChargesUnder_none tenant nowNs charges ledger
  simp only [reconcileManyUnder, reconcileMany, checkUnresolvedUnder_none, applied]

end Store

/-! ## What an import resolves -/

/-- An unresolved attempt with the charge that an entry gives for it. -/
structure Resolution where
  attempt : Attempt
  actual : Ns
  evidenceRef : PyStr

namespace Resolution

def charge (resolution : Resolution) : Charge where
  job := PyStr.ofString resolution.attempt.job.text
  actualMicrousd := resolution.actual.val
  evidenceRef := resolution.evidenceRef

def entry (resolution : Resolution) : PyValue × PyValue × PyValue :=
  (.str (PyStr.ofString resolution.attempt.job.text), .int resolution.actual.val,
    .str resolution.evidenceRef)

/-- The event that the import appends. -/
def row (nowNs : Ns) (resolution : Resolution) : EventRow :=
  ⟨nowNs, .chargeReconciled resolution.attempt.job resolution.actual resolution.evidenceRef⟩

end Resolution

/-- A batch has been settled as a whole: each attempt that it names was
unresolved and holds exactly its charge, and nothing else has changed but for
one event for each entry. -/
structure Reconciled (tenant : Name) (nowNs : Ns) (before : Ledger)
    (resolutions : List Resolution) (after : Ledger) : Prop where
  distinct : (resolutions.map fun resolution => resolution.attempt.job).Nodup
  unresolved : ∀ resolution ∈ resolutions,
    before.attempts.lookup (tenant, resolution.attempt.job) = some resolution.attempt ∧
      resolution.attempt.actual = none
  settled : ∀ resolution ∈ resolutions,
    after.attempts.lookup (tenant, resolution.attempt.job) =
      some { resolution.attempt with actual := some resolution.actual, disposition := .settled }
  others : ∀ key, (∀ resolution ∈ resolutions, key ≠ (tenant, resolution.attempt.job)) →
    after.attempts.lookup key = before.attempts.lookup key
  count : after.attemptCount = before.attemptCount
  events : after.events = before.events ++ resolutions.map (Resolution.row nowNs)
  known : after.knownMicrousd =
    before.knownMicrousd + (resolutions.map fun resolution => resolution.actual.val).sum
  held : after.heldMicrousd +
    (resolutions.map fun resolution => resolution.attempt.quote.val).sum = before.heldMicrousd
  frame : ∃ attempts events, after = { before with attempts := attempts, events := events }

section Resolving

variable {tenant : Name} {nowNs : Ns} {before middle after : Ledger} {faults : ImportFaults}

theorem Reconciled.nil (ledger : Ledger) : Reconciled tenant nowNs ledger [] ledger where
  distinct := List.nodup_nil
  unresolved := by simp
  settled := by simp
  others := fun _ _ => rfl
  count := rfl
  events := by simp
  known := by simp
  held := by simp
  frame := ⟨_, _, rfl⟩

/-- A settled charge moves from the held quotes to the known charges. -/
theorem Ledger.knownMicrousd_settleAttempt {key : Name × Name} {attempt : Attempt}
    (found : before.attempts.lookup key = some attempt) (unresolved : attempt.actual = none)
    (actual : Ns) :
    (before.settleAttempt key (some actual)).knownMicrousd =
      before.knownMicrousd + actual.val := by
  have total := @Table.total_update _ _ _ _ before.attempts _ _ (Attempt.settle (some actual))
    (Attempt.key_settle _) (fun attempt => (attempt.actual.map Fin.val).getD 0) found
  rw [unresolved] at total
  exact total

theorem Ledger.heldMicrousd_settleAttempt {key : Name × Name} {attempt : Attempt}
    (found : before.attempts.lookup key = some attempt) (unresolved : attempt.actual = none)
    (actual : Ns) :
    (before.settleAttempt key (some actual)).heldMicrousd + attempt.quote.val =
      before.heldMicrousd := by
  have total := @Table.total_update _ _ _ _ before.attempts _ _ (Attempt.settle (some actual))
    (Attempt.key_settle _)
    (fun attempt => if attempt.actual = none then attempt.quote.val else 0) found
  rw [if_pos unresolved] at total
  exact total

/-- One more attempt is settled before the rest of the batch. -/
theorem Reconciled.cons {resolution : Resolution} {rest : List Resolution}
    (found : before.attempts.lookup (tenant, resolution.attempt.job) = some resolution.attempt)
    (unresolved : resolution.attempt.actual = none)
    (fresh : resolution.attempt.job ∉ rest.map fun other => other.attempt.job)
    (reconciled : Reconciled tenant nowNs
      ((before.settleAttempt (tenant, resolution.attempt.job) (some resolution.actual)).note nowNs
        (.chargeReconciled resolution.attempt.job resolution.actual resolution.evidenceRef))
      rest after) :
    Reconciled tenant nowNs before (resolution :: rest) after := by
  have lookup : ∀ key, ((before.settleAttempt (tenant, resolution.attempt.job)
      (some resolution.actual)).note nowNs (.chargeReconciled resolution.attempt.job
        resolution.actual resolution.evidenceRef)).attempts.lookup key =
      if key = (tenant, resolution.attempt.job) then
        some (resolution.attempt.settle (some resolution.actual))
      else before.attempts.lookup key := by
    intro key
    have moved : (before.settleAttempt (tenant, resolution.attempt.job)
        (some resolution.actual)).attempts.lookup key = _ := before.lookup_settleAttempt
    rw [found, Option.map_some] at moved
    exact moved
  have apart : ∀ other ∈ rest,
      (tenant, resolution.attempt.job) ≠ (tenant, other.attempt.job) := by
    intro other member same
    rw [(Prod.mk.inj same).2] at fresh
    exact fresh (List.mem_map_of_mem member)
  obtain ⟨attempts, events, shape⟩ := reconciled.frame
  constructor
  · exact List.nodup_cons.mpr ⟨fresh, reconciled.distinct⟩
  · intro other member
    rcases List.mem_cons.mp member with rfl | later
    · exact ⟨found, unresolved⟩
    · obtain ⟨otherFound, otherUnresolved⟩ := reconciled.unresolved other later
      rw [lookup, if_neg (Ne.symm (apart other later))] at otherFound
      exact ⟨otherFound, otherUnresolved⟩
  · intro other member
    rcases List.mem_cons.mp member with rfl | later
    · rw [reconciled.others _ apart, lookup, if_pos rfl]
      rfl
    · exact reconciled.settled other later
  · intro key named
    rw [reconciled.others key fun other later => named other (List.mem_cons_of_mem _ later),
      lookup, if_neg (named resolution List.mem_cons_self)]
  · rw [reconciled.count]
    exact List.length_map _
  · rw [reconciled.events, Ledger.note, List.append_assoc]
    rfl
  · have known := Ledger.knownMicrousd_settleAttempt found unresolved resolution.actual
    have rest := reconciled.known
    rw [List.map_cons, List.sum_cons]
    change _ = (before.settleAttempt _ _).knownMicrousd + _ at rest
    omega
  · have held := Ledger.heldMicrousd_settleAttempt found unresolved resolution.actual
    have rest := reconciled.held
    rw [List.map_cons, List.sum_cons]
    change _ = (before.settleAttempt _ _).heldMicrousd at rest
    omega
  · exact ⟨attempts, events, shape⟩

theorem Store.findAttempt_some {job : PyStr} {attempt : Attempt}
    (found : Store.findAttempt before tenant job = .ok (some attempt)) :
    before.attempts.lookup attempt.key = some attempt ∧ attempt.tenant = tenant ∧
      PyStr.ofString attempt.job.text = job := by
  unfold Store.findAttempt at found
  split at found
  · contradiction
  · rw [Except.ok.injEq] at found
    have named := List.find?_some found
    rw [decide_eq_true_eq] at named
    exact ⟨Table.lookup_of_mem (List.mem_of_find?_eq_some found), named⟩

/-- What an update that finds its row has settled. -/
theorem Store.settleUnresolved_some {charge : Charge} {settled : Ledger} {job : Name}
    {actual : Ns}
    (updated : Store.settleUnresolved before tenant charge = .ok (some (settled, job, actual))) :
    ∃ attempt : Attempt, before.attempts.lookup (tenant, attempt.job) = some attempt ∧
      PyStr.ofString attempt.job.text = charge.job ∧ attempt.actual = none ∧
        actual.val = charge.actualMicrousd ∧ job = attempt.job ∧
          settled = before.settleAttempt (tenant, attempt.job) (some actual) := by
  unfold Store.settleUnresolved at updated
  split at updated
  · split at updated
    · contradiction
    · cases updated
    · rename_i attempt found
      obtain ⟨stored, rfl, named⟩ := Store.findAttempt_some found
      split at updated
      · cases updated
      · rename_i open'
        simp only [Except.ok.injEq, Option.some.injEq, Prod.mk.injEq] at updated
        obtain ⟨rfl, rfl, rfl⟩ := updated
        exact ⟨attempt, stored, named, by simpa using open', rfl, rfl, rfl⟩
  · contradiction

theorem Store.execute_ok {α : Type} {statement : ImportStatement} {body : Except PyExc α}
    {value : α} (executed : Store.execute faults statement body = .ok value) :
    body = .ok value := by
  unfold Store.execute at executed
  split at executed
  · contradiction
  · exact executed

/-- What a transaction that commits has settled. -/
theorem Store.applyChargesUnder_ok {charges : List Charge}
    (distinct : (charges.map Charge.job).Nodup)
    (applied : Store.applyChargesUnder faults tenant nowNs charges before = .ok after) :
    ∃ resolutions : List Resolution, charges = resolutions.map Resolution.charge ∧
      Reconciled tenant nowNs before resolutions after := by
  induction charges generalizing before with
  | nil =>
      obtain rfl := Except.ok.inj (Store.execute_ok applied)
      exact ⟨[], rfl, .nil _⟩
  | cons charge rest ih =>
      rw [List.map_cons, List.nodup_cons] at distinct
      simp only [Store.applyChargesUnder] at applied
      split at applied
      · contradiction
      · contradiction
      · rename_i settled job actual updated
        split at applied
        · contradiction
        · rename_i noted inserted
          obtain rfl := Except.ok.inj (Store.execute_ok inserted)
          obtain ⟨attempt, found, named, unresolved, amount, rfl, rfl⟩ :=
            Store.settleUnresolved_some (Store.execute_ok updated)
          obtain ⟨resolutions, rfl, reconciled⟩ := ih distinct.2 applied
          refine ⟨⟨attempt, actual, charge.evidenceRef⟩ :: resolutions, ?_, ?_⟩
          · rw [List.map_cons, Resolution.charge, named, amount]
          · apply Reconciled.cons found unresolved _ reconciled
            intro again
            obtain ⟨other, member, same⟩ := List.mem_map.mp again
            apply distinct.1
            rw [List.map_map]
            refine List.mem_map.mpr ⟨other, member, ?_⟩
            rw [← named, ← same]
            rfl

/-- Every entry that passes the checks is a charge for a job of its own. -/
theorem Store.checkEntries_ok {entries : List (PyValue × PyValue × PyValue)}
    {seen : List PyStr} {charges : List Charge}
    (checked : Store.checkEntries entries seen = .ok charges) :
    entries = (charges.map fun charge =>
        (.str charge.job, .int charge.actualMicrousd, .str charge.evidenceRef)) ∧
      (charges.map Charge.job).Nodup ∧ ∀ charge ∈ charges, charge.job ∉ seen := by
  induction entries generalizing seen charges with
  | nil =>
      obtain rfl := Except.ok.inj checked
      simp
  | cons entry rest ih =>
      unfold Store.checkEntries at checked
      split at checked
      · contradiction
      · rename_i job actual evidence others same
        split at checked
        · contradiction
        · rename_i wellFormed
          simp only [not_or] at wellFormed
          split at checked
          · contradiction
          · rename_i later restChecked
            obtain ⟨rfl, rfl⟩ := List.cons.inj same
            obtain rfl := Except.ok.inj checked
            obtain ⟨shape, distinct, unseen⟩ := ih restChecked
            have amount : ((actual.toNat : Nat) : Int) = actual :=
              Int.toNat_of_nonneg (by omega)
            refine ⟨?_, ?_, ?_⟩
            · rw [List.map_cons, shape, amount]
            · rw [List.map_cons, List.nodup_cons]
              refine ⟨?_, distinct⟩
              intro again
              obtain ⟨charge, member, named⟩ := List.mem_map.mp again
              exact unseen charge member (by rw [named]; exact List.mem_cons_self)
            · intro charge member
              rcases List.mem_cons.mp member with rfl | member
              · exact wellFormed.2.2.1
              · intro inSeen
                exact unseen charge member (List.mem_cons_of_mem _ inSeen)
      · contradiction

end Resolving

/-- Batch reconciliation is all or nothing, wherever SQLite raises. -/
theorem reconciliation_atomic {μ : Type} (faults : ImportFaults) (tenant : Name)
    (entries : List (PyValue × PyValue × PyValue)) (nowNs : Ns) (ledger : Ledger) (memory : μ) :
    (∃ exception, Store.reconcileManyUnder faults tenant entries nowNs ledger memory =
        ⟨.error exception, memory, []⟩) ∨
      ∃ resolutions after, entries = resolutions.map Resolution.entry ∧
        Store.reconcileManyUnder faults tenant entries nowNs ledger memory =
          ⟨.ok (), memory, [after]⟩ ∧
        Reconciled tenant nowNs ledger resolutions after := by
  simp only [Store.reconcileManyUnder, ofExcept_bind, readDurable_bind]
  cases checked : Store.checkEntries entries [] with
  | error exception => exact .inl ⟨exception, rfl⟩
  | ok charges =>
      obtain ⟨rfl, distinct, -⟩ := Store.checkEntries_ok checked
      simp only [transaction]
      cases unresolved : Store.checkUnresolvedUnder faults ledger tenant charges with
      | error exception => exact .inl ⟨exception, rfl⟩
      | ok =>
          cases applied : Store.applyChargesUnder faults tenant nowNs charges ledger with
          | error exception => exact .inl ⟨exception, rfl⟩
          | ok after =>
              obtain ⟨resolutions, rfl, reconciled⟩ := Store.applyChargesUnder_ok distinct applied
              refine .inr ⟨resolutions, after, ?_, rfl, reconciled⟩
              rw [List.map_map]
              rfl

end AgminaRuntime
