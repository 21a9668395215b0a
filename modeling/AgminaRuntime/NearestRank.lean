import Mathlib.Algebra.Order.Ring.Int
import Mathlib.Data.List.Basic

/-!
# Nearest ranks

What stands at an index of a sorted list has as many elements up to it as the
index says, and no more below it.
-/

namespace NearestRank

variable {α : Type*} [LinearOrder α] {sorted : List α} (ordered : sorted.Pairwise (· ≤ ·))

include ordered

theorem getElem_le {first second : Nat} (le : first ≤ second) (inside : second < sorted.length) :
    sorted[first] ≤ sorted[second] := by
  rcases Nat.eq_or_lt_of_le le with rfl | lt
  · exact le_refl _
  · exact List.pairwise_iff_getElem.mp ordered first second _ inside lt

/-- Later ranks are no smaller. -/
theorem select_mono {first second : Nat} (le : first ≤ second) {early late : α}
    (earlyEq : sorted[first]? = some early) (lateEq : sorted[second]? = some late) :
    early ≤ late := by
  obtain ⟨firstInside, rfl⟩ := List.getElem?_eq_some_iff.mp earlyEq
  obtain ⟨secondInside, rfl⟩ := List.getElem?_eq_some_iff.mp lateEq
  exact getElem_le ordered le secondInside

theorem select_le_of_mem {rank : Nat} {value other : α} (selected : sorted[rank]? = some value)
    (member : other ∈ sorted.drop rank) : value ≤ other := by
  obtain ⟨inside, rfl⟩ := List.getElem?_eq_some_iff.mp selected
  obtain ⟨offset, within, rfl⟩ := List.getElem_of_mem member
  rw [List.getElem_drop]
  exact getElem_le ordered (Nat.le_add_right rank offset) _

theorem le_select_of_mem {rank : Nat} {value other : α} (selected : sorted[rank]? = some value)
    (member : other ∈ sorted.take (rank + 1)) : other ≤ value := by
  obtain ⟨inside, rfl⟩ := List.getElem?_eq_some_iff.mp selected
  obtain ⟨index, within, rfl⟩ := List.getElem_of_mem member
  rw [List.getElem_take]
  apply getElem_le ordered _ inside
  rw [List.length_take] at within
  omega

/-- More elements than the rank are up to what stands there. -/
theorem lt_countP_le {rank : Nat} {value : α} (selected : sorted[rank]? = some value) :
    rank < sorted.countP (· ≤ value) := by
  obtain ⟨inside, -⟩ := List.getElem?_eq_some_iff.mp selected
  have front : (sorted.take (rank + 1)).countP (· ≤ value) = rank + 1 := by
    rw [List.countP_eq_length.mpr, List.length_take]
    · omega
    · exact fun other member => decide_eq_true (le_select_of_mem ordered selected member)
  have whole := congrArg (List.countP fun other => decide (other ≤ value))
    (List.take_append_drop (rank + 1) sorted)
  rw [List.countP_append, front] at whole
  omega

/-- No more elements than the rank are below it. -/
theorem countP_lt_le {rank : Nat} {value : α} (selected : sorted[rank]? = some value) :
    sorted.countP (· < value) ≤ rank := by
  have back : (sorted.drop rank).countP (· < value) = 0 := by
    rw [List.countP_eq_zero]
    intro other member
    simpa using select_le_of_mem ordered selected member
  have front := List.countP_le_length (p := fun other => decide (other < value))
    (l := sorted.take rank)
  rw [List.length_take] at front
  have whole := congrArg (List.countP fun other => decide (other < value))
    (List.take_append_drop rank sorted)
  rw [List.countP_append, back] at whole
  omega

end NearestRank
