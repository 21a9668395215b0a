import Mathlib.Algebra.BigOperators.Group.List.Basic
import Mathlib.Algebra.Order.Ring.Int
import Mathlib.Data.List.Induction
import Mathlib.Data.List.Nodup

/-!
# Tallies

A tally files items under keys, in the order in which the keys first appear:
the first item of a key opens its entry, and every item changes the entry of
its key.  An entry therefore shows its own items only, and a quantity to which
every item adds the same wherever it is filed is the same over all entries.
-/

namespace Tally

variable {κ ν α : Type} [DecidableEq κ]

/-- Change the entry of a key, which opens with an initial value. -/
def upsert (initial : ν) (change : ν → ν) (key : κ) : List (κ × ν) → List (κ × ν)
  | [] => [(key, change initial)]
  | (other, value) :: rest =>
      if other = key then (other, change value) :: rest
      else (other, value) :: upsert initial change key rest

/-- File every item. -/
def tally (key : α → κ) (initial : ν) (add : α → ν → ν) (items : List α) : List (κ × ν) :=
  items.foldl (fun entries item => upsert initial (add item) (key item) entries) []

section Upsert

variable {initial : ν} {change : ν → ν} {key other : κ} {entries : List (κ × ν)}

theorem mem_keys_upsert :
    other ∈ (upsert initial change key entries).map Prod.fst ↔
      other = key ∨ other ∈ entries.map Prod.fst := by
  induction entries with
  | nil => simp [upsert]
  | cons entry rest ih =>
      obtain ⟨first, value⟩ := entry
      rw [upsert]
      split
      · rename_i same
        simp [same]
      · simp only [List.map_cons, List.mem_cons, ih]
        exact or_left_comm

theorem nodup_upsert (distinct : (entries.map Prod.fst).Nodup) :
    ((upsert initial change key entries).map Prod.fst).Nodup := by
  induction entries with
  | nil => simp [upsert]
  | cons entry rest ih =>
      obtain ⟨first, value⟩ := entry
      rw [List.map_cons, List.nodup_cons] at distinct
      rw [upsert]
      split
      · exact List.nodup_cons.mpr distinct
      · rename_i differs
        rw [List.map_cons, List.nodup_cons]
        refine ⟨?_, ih distinct.2⟩
        rw [mem_keys_upsert]
        rintro (same | earlier)
        · exact differs same
        · exact distinct.1 earlier

theorem lookup_upsert :
    (upsert initial change key entries).lookup other =
      if other = key then some (change ((entries.lookup key).getD initial))
      else entries.lookup other := by
  have missed : ∀ {first second : κ}, first ≠ second → (first == second) = false :=
    beq_false_of_ne
  induction entries with
  | nil =>
      by_cases same : other = key
      · simp [upsert, same]
      · simp [upsert, List.lookup_cons, same, missed same]
  | cons entry rest ih =>
      obtain ⟨first, value⟩ := entry
      rw [upsert]
      by_cases hit : first = key
      · subst hit
        by_cases same : other = first
        · simp [same]
        · simp [List.lookup_cons, same, missed same]
      · rw [if_neg hit, List.lookup_cons, ih, List.lookup_cons, List.lookup_cons,
          missed (Ne.symm hit)]
        by_cases there : other = first
        · simp [there, hit]
        · simp [missed there]

/-- What a change adds to a measure of its entry, it adds to the sum. -/
theorem sum_upsert (measure : ν → Nat) {weight : Nat} (empty : measure initial = 0)
    (adds : ∀ value, measure (change value) = measure value + weight) :
    ((upsert initial change key entries).map fun entry => measure entry.2).sum =
      (entries.map fun entry => measure entry.2).sum + weight := by
  induction entries with
  | nil => simp [upsert, adds, empty]
  | cons entry rest ih =>
      obtain ⟨first, value⟩ := entry
      rw [upsert]
      split
      · simp only [List.map_cons, List.sum_cons, adds]
        omega
      · simp only [List.map_cons, List.sum_cons, ih]
        omega

theorem forall_upsert (property : ν → Prop) (initially : property initial)
    (changed : ∀ value, property value → property (change value))
    (holds : ∀ entry ∈ entries, property entry.2) :
    ∀ entry ∈ upsert initial change key entries, property entry.2 := by
  induction entries with
  | nil => simpa [upsert] using changed initial initially
  | cons entry rest ih =>
      obtain ⟨first, value⟩ := entry
      rw [List.forall_mem_cons] at holds
      rw [upsert]
      split
      · exact List.forall_mem_cons.mpr ⟨changed value holds.1, holds.2⟩
      · exact List.forall_mem_cons.mpr ⟨holds.1, ih holds.2⟩

end Upsert

theorem lookup_of_mem {entries : List (κ × ν)} {entry : κ × ν}
    (distinct : (entries.map Prod.fst).Nodup) (member : entry ∈ entries) :
    entries.lookup entry.1 = some entry.2 := by
  induction entries with
  | nil => simp at member
  | cons first rest ih =>
      rw [List.map_cons, List.nodup_cons] at distinct
      rw [List.lookup_cons]
      rcases List.mem_cons.mp member with rfl | later
      · simp
      · have apart : entry.1 ≠ first.1 := by
          intro same
          apply distinct.1
          rw [← same]
          exact List.mem_map_of_mem later
        rw [beq_false_of_ne apart]
        exact ih distinct.2 later

variable {key : α → κ} {initial : ν} {add : α → ν → ν} {items : List α}

theorem tally_append_singleton (items : List α) (item : α) :
    tally key initial add (items ++ [item]) =
      upsert initial (add item) (key item) (tally key initial add items) := by
  simp [tally]

/-- The entry of a key shows the items of that key, in their order. -/
theorem lookup_tally (target : κ) :
    (tally key initial add items).lookup target =
      if items.filter (fun item => key item = target) = [] then none
      else some ((items.filter fun item => key item = target).foldl
        (fun value item => add item value) initial) := by
  induction items using List.reverseRecOn with
  | nil => simp [tally]
  | append_singleton items item ih =>
      rw [tally_append_singleton, lookup_upsert]
      by_cases same : target = key item
      · subst same
        rw [if_pos rfl, ih, List.filter_append, List.filter_cons_of_pos (by simp)]
        simp only [List.filter_nil, List.foldl_append, List.foldl_cons, List.foldl_nil,
          List.append_eq_nil_iff, List.cons_ne_nil, and_false, if_false]
        split
        · rename_i none_
          simp [none_]
        · simp
      · have other : ¬ key item = target := fun hit => same hit.symm
        rw [if_neg same, ih, List.filter_append, List.filter_cons_of_neg (by simp [other])]
        simp

theorem nodup_tally : ((tally key initial add items).map Prod.fst).Nodup := by
  induction items using List.reverseRecOn with
  | nil => simp [tally]
  | append_singleton items item ih =>
      rw [tally_append_singleton]
      exact nodup_upsert ih

/-- An entry is what some item of its key has left. -/
theorem mem_tally {entry : κ × ν} (member : entry ∈ tally key initial add items) :
    entry.2 = (items.filter fun item => key item = entry.1).foldl
      (fun value item => add item value) initial := by
  have found := lookup_of_mem nodup_tally member
  rw [lookup_tally] at found
  split at found
  · contradiction
  · exact (Option.some.inj found).symm

/-- What every item keeps of an entry, the entries have. -/
theorem forall_tally (property : ν → Prop) (initially : property initial)
    (adds : ∀ item ∈ items, ∀ value, property value → property (add item value)) :
    ∀ entry ∈ tally key initial add items, property entry.2 := by
  induction items using List.reverseRecOn with
  | nil => simp [tally]
  | append_singleton items item ih =>
      rw [tally_append_singleton]
      apply forall_upsert property initially
      · exact adds item (by simp)
      · exact ih fun other member => adds other (by simp [member])

/-- Filing loses nothing. -/
theorem sum_tally (measure : ν → Nat) (weight : α → Nat) (empty : measure initial = 0)
    (adds : ∀ item value, measure (add item value) = measure value + weight item) :
    ((tally key initial add items).map fun entry => measure entry.2).sum =
      (items.map weight).sum := by
  induction items using List.reverseRecOn with
  | nil => simp [tally]
  | append_singleton items item ih =>
      rw [tally_append_singleton, sum_upsert measure empty (adds item), ih]
      simp

end Tally
