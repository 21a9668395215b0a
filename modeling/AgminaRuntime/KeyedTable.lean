import Mathlib.Algebra.BigOperators.Group.List.Basic
import Mathlib.Algebra.Order.BigOperators.Group.List
import Mathlib.Algebra.Order.Group.Nat
import Mathlib.Algebra.Order.Ring.Int
import Mathlib.Data.List.Nodup
import Mathlib.Data.List.Perm.Subperm

/-!
# Tables with a primary key

A database table keeps its rows in the order of their insertion and refuses
two rows with one key.  The refusal is a field of the structure, so a lookup
by key is the same thing as membership.
-/

namespace Keyed

/-- Rows in insertion order, no two of them with the same key. -/
structure Table (κ ρ : Type) (key : ρ → κ) where
  rows : List ρ
  distinct : (rows.map key).Nodup

namespace Table

variable {κ ρ : Type} {key : ρ → κ}

@[ext]
theorem ext {first second : Table κ ρ key} (rows : first.rows = second.rows) :
    first = second := by
  cases first
  cases second
  cases rows
  rfl

instance [DecidableEq ρ] : DecidableEq (Table κ ρ key) := fun first second =>
  decidable_of_iff (first.rows = second.rows) ⟨ext, congrArg rows⟩

/-- The table without rows. -/
def empty : Table κ ρ key := ⟨[], List.nodup_nil⟩

/-- The sum of a weight over all rows. -/
def total (weight : ρ → Nat) (table : Table κ ρ key) : Nat :=
  (table.rows.map weight).sum

/-- Change the row that has a given key; the change keeps the key. -/
def update [DecidableEq κ] (target : κ) (change : ρ → ρ)
    (keeps : ∀ row, key (change row) = key row) (table : Table κ ρ key) : Table κ ρ key where
  rows := table.rows.map fun row => if key row = target then change row else row
  distinct := by
    have sameKeys : (table.rows.map fun row =>
        if key row = target then change row else row).map key = table.rows.map key := by
      rw [List.map_map]
      apply List.map_congr_left
      intro row _
      by_cases hit : key row = target <;> simp [hit, keeps]
    rw [sameKeys]
    exact table.distinct

@[simp]
theorem rows_empty : (empty : Table κ ρ key).rows = [] := rfl

/-- Appending a row adds its weight to a sum. -/
theorem total_of_rows_append {table next : Table κ ρ key} {row : ρ} (weight : ρ → Nat)
    (rows : next.rows = table.rows ++ [row]) :
    next.total weight = table.total weight + weight row := by
  simp [total, rows]

variable [DecidableEq κ]

/-- The row with a given key. -/
def lookup (target : κ) (table : Table κ ρ key) : Option ρ :=
  table.rows.find? fun row => key row = target

/-- Append a row, unless its key is taken. -/
def insert? (row : ρ) (table : Table κ ρ key) : Option (Table κ ρ key) :=
  if taken : key row ∈ table.rows.map key then none
  else some
    { rows := table.rows ++ [row]
      distinct := by
        rw [List.map_append, List.map_singleton]
        exact List.Nodup.append table.distinct (List.nodup_singleton _)
          (List.disjoint_singleton.mpr taken) }

/-- Append a row, or keep the table as it is when the key is taken. -/
def insertOrIgnore (row : ρ) (table : Table κ ρ key) : Table κ ρ key :=
  (table.insert? row).getD table

/-- Remove the row with a given key. -/
def erase (target : κ) (table : Table κ ρ key) : Table κ ρ key where
  rows := table.rows.filter fun row => key row ≠ target
  distinct := table.distinct.sublist (List.filter_sublist.map key)

/-- Append a row in place of the one that has its key. -/
def replace (row : ρ) (table : Table κ ρ key) : Table κ ρ key where
  rows := (table.erase (key row)).rows ++ [row]
  distinct := by
    rw [List.map_append, List.map_singleton]
    refine List.Nodup.append (table.erase (key row)).distinct (List.nodup_singleton _) ?_
    rw [List.disjoint_singleton]
    simp [erase]

variable {table : Table κ ρ key} {row : ρ} {target other : κ}

/-! ## Lookups -/

theorem lookup_eq_some_iff :
    table.lookup target = some row ↔ row ∈ table.rows ∧ key row = target := by
  constructor
  · intro found
    exact ⟨List.mem_of_find?_eq_some found, by simpa using List.find?_some found⟩
  · rintro ⟨member, rfl⟩
    unfold lookup
    cases found : table.rows.find? fun candidate => key candidate = key row with
    | none =>
        have := List.find?_eq_none.mp found row member
        simp at this
    | some candidate =>
        have sameKey : key candidate = key row := by simpa using List.find?_some found
        rw [List.inj_on_of_nodup_map table.distinct (List.mem_of_find?_eq_some found)
          member sameKey]

theorem lookup_eq_none_iff :
    table.lookup target = none ↔ ∀ row ∈ table.rows, key row ≠ target := by
  simp [lookup, List.find?_eq_none]

theorem lookup_of_mem (member : row ∈ table.rows) : table.lookup (key row) = some row :=
  lookup_eq_some_iff.mpr ⟨member, rfl⟩

theorem mem_of_lookup (found : table.lookup target = some row) : row ∈ table.rows :=
  (lookup_eq_some_iff.mp found).1

theorem key_of_lookup (found : table.lookup target = some row) : key row = target :=
  (lookup_eq_some_iff.mp found).2

@[simp]
theorem lookup_empty : (empty : Table κ ρ key).lookup target = none := rfl

theorem lookup_update_self {change : ρ → ρ} {keeps : ∀ row, key (change row) = key row} :
    (table.update target change keeps).lookup target =
      (table.lookup target).map change := by
  cases found : table.lookup target with
  | none =>
      rw [lookup_eq_none_iff] at found
      simp only [Option.map_none, lookup_eq_none_iff, update, List.mem_map]
      rintro _ ⟨row, member, rfl⟩
      have miss := found row member
      simp [miss]
  | some row =>
      rw [lookup_eq_some_iff] at found
      simp only [Option.map_some, lookup_eq_some_iff, update, List.mem_map]
      exact ⟨⟨row, found.1, by simp [found.2]⟩, by rw [keeps, found.2]⟩

theorem lookup_update_of_ne {change : ρ → ρ} {keeps : ∀ row, key (change row) = key row}
    (differs : other ≠ target) :
    (table.update target change keeps).lookup other = table.lookup other := by
  ext row
  simp only [lookup_eq_some_iff, update, List.mem_map]
  constructor
  · rintro ⟨⟨old, member, rfl⟩, keyEq⟩
    by_cases hit : key old = target
    · rw [if_pos hit, keeps, hit] at keyEq
      exact absurd keyEq.symm differs
    · rw [if_neg hit] at keyEq ⊢
      exact ⟨member, keyEq⟩
  · rintro ⟨member, keyEq⟩
    exact ⟨⟨row, member, if_neg (by rw [keyEq]; exact differs)⟩, keyEq⟩

theorem lookup_update {change : ρ → ρ} {keeps : ∀ row, key (change row) = key row} :
    (table.update target change keeps).lookup other =
      if other = target then (table.lookup target).map change else table.lookup other := by
  by_cases same : other = target
  · subst same
    rw [if_pos rfl, lookup_update_self]
  · rw [if_neg same, lookup_update_of_ne same]

theorem insert?_eq_some_iff {next : Table κ ρ key} :
    table.insert? row = some next ↔
      table.lookup (key row) = none ∧ next.rows = table.rows ++ [row] := by
  unfold insert?
  have fresh : key row ∉ table.rows.map key ↔ table.lookup (key row) = none := by
    rw [lookup_eq_none_iff]
    simp
  by_cases taken : key row ∈ table.rows.map key
  · rw [dif_pos taken]
    simp only [reduceCtorEq, false_iff, not_and]
    intro absent
    exact absurd taken (fresh.mpr absent)
  · rw [dif_neg taken]
    simp only [Option.some.injEq, fresh.mp taken, true_and]
    constructor
    · rintro rfl
      rfl
    · intro rows
      exact ext rows.symm

theorem insert?_eq_none_iff :
    table.insert? row = none ↔ (table.lookup (key row)).isSome := by
  unfold insert?
  by_cases taken : key row ∈ table.rows.map key
  · rw [dif_pos taken]
    obtain ⟨old, member, keyEq⟩ := List.mem_map.mp taken
    rw [lookup_eq_some_iff.mpr ⟨member, keyEq⟩]
    simp
  · rw [dif_neg taken]
    have absent : table.lookup (key row) = none := by
      rw [lookup_eq_none_iff]
      intro old member keyEq
      exact taken (List.mem_map.mpr ⟨old, member, keyEq⟩)
    simp [absent]

theorem lookup_insert? {next : Table κ ρ key} (inserted : table.insert? row = some next) :
    next.lookup target = if key row = target then some row else table.lookup target := by
  obtain ⟨absent, rows⟩ := insert?_eq_some_iff.mp inserted
  by_cases same : key row = target
  · rw [if_pos same, lookup_eq_some_iff, rows]
    simp [same]
  · rw [if_neg same]
    ext candidate
    simp only [lookup_eq_some_iff, rows, List.mem_append, List.mem_singleton]
    constructor
    · rintro ⟨member | rfl, keyEq⟩
      · exact ⟨member, keyEq⟩
      · exact absurd keyEq same
    · rintro ⟨member, keyEq⟩
      exact ⟨Or.inl member, keyEq⟩

theorem lookup_insertOrIgnore :
    (table.insertOrIgnore row).lookup target =
      if key row = target then some ((table.lookup target).getD row)
      else table.lookup target := by
  unfold insertOrIgnore
  cases inserted : table.insert? row with
  | none =>
      have present := insert?_eq_none_iff.mp inserted
      by_cases same : key row = target
      · subst same
        obtain ⟨old, found⟩ := Option.isSome_iff_exists.mp present
        simp [found]
      · simp [same]
  | some next =>
      have absent := (insert?_eq_some_iff.mp inserted).1
      rw [Option.getD_some, lookup_insert? inserted]
      by_cases same : key row = target
      · subst same
        simp [absent]
      · simp [same]

theorem lookup_erase :
    (table.erase target).lookup other = if other = target then none else table.lookup other := by
  by_cases same : other = target
  · subst same
    rw [if_pos rfl, lookup_eq_none_iff]
    simp [erase]
  · rw [if_neg same]
    ext row
    simp only [lookup_eq_some_iff, erase, List.mem_filter, decide_eq_true_eq]
    constructor
    · rintro ⟨⟨member, _⟩, keyEq⟩
      exact ⟨member, keyEq⟩
    · rintro ⟨member, keyEq⟩
      exact ⟨⟨member, by rw [keyEq]; exact same⟩, keyEq⟩

theorem lookup_replace :
    (table.replace row).lookup target =
      if key row = target then some row else table.lookup target := by
  ext candidate
  by_cases same : key row = target
  · simp only [if_pos same, lookup_eq_some_iff, replace, erase, List.mem_append,
      List.mem_filter, List.mem_singleton, decide_eq_true_eq, Option.some.injEq]
    constructor
    · rintro ⟨⟨_, differs⟩ | rfl, keyEq⟩
      · exact absurd (keyEq.trans same.symm) differs
      · rfl
    · rintro rfl
      exact ⟨Or.inr rfl, same⟩
  · simp only [if_neg same, lookup_eq_some_iff, replace, erase, List.mem_append,
      List.mem_filter, List.mem_singleton, decide_eq_true_eq]
    constructor
    · rintro ⟨⟨member, _⟩ | rfl, keyEq⟩
      · exact ⟨member, keyEq⟩
      · exact absurd keyEq same
    · rintro ⟨member, keyEq⟩
      exact ⟨Or.inl ⟨member, by rw [keyEq]; exact Ne.symm same⟩, keyEq⟩

/-! ## Sums over the rows -/

/-- Updating one row changes a sum by what that row contributes. -/
theorem total_update {change : ρ → ρ} {keeps : ∀ row, key (change row) = key row}
    (weight : ρ → Nat) (found : table.lookup target = some row) :
    (table.update target change keeps).total weight + weight row =
      table.total weight + weight (change row) := by
  obtain ⟨member, keyEq⟩ := lookup_eq_some_iff.mp found
  have general : ∀ rows : List ρ, (rows.map key).Nodup → row ∈ rows →
      ((rows.map fun old => if key old = target then change old else old).map weight).sum +
          weight row =
        (rows.map weight).sum + weight (change row) := by
    intro rows
    induction rows with
    | nil => simp
    | cons head rest ih =>
        intro distinct member
        rw [List.map_cons, List.nodup_cons] at distinct
        rcases List.mem_cons.mp member with rfl | later
        · have untouched : (rest.map fun old =>
              if key old = target then change old else old) = rest := by
            conv_rhs => rw [← List.map_id rest]
            apply List.map_congr_left
            intro old oldMember
            have differs : key old ≠ target := by
              intro sameKey
              exact distinct.1 (List.mem_map.mpr ⟨old, oldMember, by rw [sameKey, keyEq]⟩)
            simp [differs]
          simp only [List.map_cons, untouched, if_pos keyEq, List.sum_cons]
          omega
        · have differs : key head ≠ target := by
            intro sameKey
            exact distinct.1 (List.mem_map.mpr ⟨row, later, by rw [keyEq, sameKey]⟩)
          have tail := ih distinct.2 later
          simp only [List.map_cons, if_neg differs, List.sum_cons]
          omega
  exact general table.rows table.distinct member

/-- A new row without weight leaves a sum as it is. -/
theorem total_insertOrIgnore (weight : ρ → Nat) (nothing : weight row = 0) :
    (table.insertOrIgnore row).total weight = table.total weight := by
  unfold insertOrIgnore
  cases inserted : table.insert? row with
  | none => rfl
  | some next =>
      rw [Option.getD_some,
        total_of_rows_append weight (insert?_eq_some_iff.mp inserted).2, nothing, Nat.add_zero]

theorem mem_insertOrIgnore {old : ρ} (member : old ∈ (table.insertOrIgnore row).rows) :
    old ∈ table.rows ∨ old = row := by
  unfold insertOrIgnore at member
  cases inserted : table.insert? row with
  | none =>
      rw [inserted] at member
      exact Or.inl member
  | some next =>
      rw [inserted, Option.getD_some, (insert?_eq_some_iff.mp inserted).2, List.mem_append,
        List.mem_singleton] at member
      exact member

/-- A sum grows when no row disappears and no contribution shrinks. -/
theorem total_le_total {first second : Table κ ρ key} (weight weight' : ρ → Nat)
    (bounded : ∀ target row, first.lookup target = some row →
      ∃ other, second.lookup target = some other ∧ weight row ≤ weight' other) :
    first.total weight ≤ second.total weight' := by
  let share : κ → Nat := fun target => (second.lookup target).elim 0 weight'
  have within : first.rows.map key ⊆ second.rows.map key := by
    intro target member
    obtain ⟨row, rowMember, rfl⟩ := List.mem_map.mp member
    obtain ⟨other, found, -⟩ := bounded _ row (lookup_of_mem rowMember)
    exact List.mem_map.mpr ⟨other, mem_of_lookup found, key_of_lookup found⟩
  obtain ⟨keys, sameKeys, sublist⟩ := first.distinct.subperm within
  calc
    first.total weight ≤ (first.rows.map fun row => share (key row)).sum := by
      refine List.sum_le_sum fun row member => ?_
      obtain ⟨other, found, le⟩ := bounded _ row (lookup_of_mem member)
      simpa [share, found] using le
    _ = ((first.rows.map key).map share).sum := by rw [List.map_map]; rfl
    _ = (keys.map share).sum := ((sameKeys.map share).sum_eq).symm
    _ ≤ ((second.rows.map key).map share).sum :=
      (sublist.map share).sum_le_sum fun _ _ => Nat.zero_le _
    _ = second.total weight' := by
      rw [List.map_map]
      refine congrArg List.sum (List.map_congr_left fun row member => ?_)
      simp [share, lookup_of_mem member]

/-- A table whose keys all occur in another one is not longer. -/
theorem length_le_length {first second : Table κ ρ key}
    (present : ∀ target row, first.lookup target = some row →
      ∃ other, second.lookup target = some other) :
    first.rows.length ≤ second.rows.length := by
  have within : first.rows.map key ⊆ second.rows.map key := by
    intro target member
    obtain ⟨row, rowMember, rfl⟩ := List.mem_map.mp member
    obtain ⟨other, found⟩ := present _ row (lookup_of_mem rowMember)
    exact List.mem_map.mpr ⟨other, mem_of_lookup found, key_of_lookup found⟩
  simpa using (first.distinct.subperm within).length_le

/-- What a change of one row does not touch stays as it is in every row. -/
theorem map_update {α : Type} {change : ρ → ρ} (keeps : ∀ row, key (change row) = key row)
    (field : ρ → α) (untouched : ∀ row, field (change row) = field row) :
    (table.update target change keeps).rows.map field = table.rows.map field := by
  simp only [update, List.map_map]
  apply List.map_congr_left
  intro row _
  by_cases hit : key row = target <;> simp [hit, untouched]

end Table

end Keyed
