import Mathlib.Algebra.Order.Ring.Int
import Mathlib.Data.List.Basic

/-!
# Lines of a text that arrives in pieces

A reader of lines keeps the characters behind the last line break in a buffer.
The finished lines and the buffer do not depend on how the text was cut.  A text as
a whole is its lines up to the last one, which has no break.
-/

namespace Lines

variable {α : Type*} (isBreak : α → Bool)

/-- The finished lines of a text, without their breaks, and what stands behind
the last break. -/
def split : List α → List (List α) × List α
  | [] => ([], [])
  | char :: text =>
      if isBreak char then ([] :: (split text).1, (split text).2)
      else
        match split text with
        | ([], last) => ([], char :: last)
        | (line :: lines, last) => ((char :: line) :: lines, last)

variable {isBreak}

theorem split_break {char : α} (ends : isBreak char = true) (text : List α) :
    split isBreak (char :: text) = ([] :: (split isBreak text).1, (split isBreak text).2) := by
  rw [split, if_pos ends]

/-- A line and its break in front of a text. -/
theorem split_line {line : List α} (whole : ∀ char ∈ line, isBreak char = false) {char : α}
    (ends : isBreak char = true) (text : List α) :
    split isBreak (line ++ char :: text) =
      (line :: (split isBreak text).1, (split isBreak text).2) := by
  induction line with
  | nil => exact split_break ends text
  | cons first line ih =>
      have rest := ih fun other member => whole other (List.mem_cons_of_mem _ member)
      rw [List.cons_append, split, if_neg (by simp [whole first List.mem_cons_self]), rest]

/-- A text without breaks is all buffer. -/
theorem split_unbroken {text : List α} (whole : ∀ char ∈ text, isBreak char = false) :
    split isBreak text = ([], text) := by
  induction text with
  | nil => rfl
  | cons first text ih =>
      have rest := ih fun other member => whole other (List.mem_cons_of_mem _ member)
      rw [split, if_neg (by simp [whole first List.mem_cons_self]), rest]

/-- Induction on the lines of a text. -/
theorem line_induction (isBreak : α → Bool) {motive : List α → Prop}
    (unbroken : ∀ text, (∀ char ∈ text, isBreak char = false) → motive text)
    (line : ∀ line char text, (∀ other ∈ line, isBreak other = false) → isBreak char = true →
      motive text → motive (line ++ char :: text)) (text : List α) : motive text := by
  -- The line in front grows until its break is found.
  have grows : ∀ before, (∀ char ∈ before, isBreak char = false) → motive (before ++ text) := by
    induction text with
    | nil =>
        intro before whole
        rw [List.append_nil]
        exact unbroken before whole
    | cons char text ih =>
        intro before whole
        cases breaks : isBreak char with
        | true => exact line before char text whole breaks (ih [] (by simp))
        | false =>
            have longer := ih (before ++ [char]) (by
              intro other member
              rcases List.mem_append.mp member with early | last
              · exact whole other early
              · rw [List.mem_singleton.mp last, breaks])
            rwa [List.append_assoc, List.cons_append, List.nil_append] at longer
  exact grows [] (by simp)

/-- The buffer holds no break. -/
theorem unbroken_last (text : List α) : ∀ char ∈ (split isBreak text).2, isBreak char = false := by
  induction text using line_induction isBreak with
  | unbroken text whole => rwa [split_unbroken whole]
  | line line char text whole ends ih => rwa [split_line whole ends]

/-- A text that arrives in two pieces. -/
theorem split_append (first second : List α) :
    split isBreak (first ++ second) =
      ((split isBreak first).1 ++ (split isBreak ((split isBreak first).2 ++ second)).1,
        (split isBreak ((split isBreak first).2 ++ second)).2) := by
  induction first using line_induction isBreak with
  | unbroken text whole => simp [split_unbroken whole]
  | line line char text whole ends ih =>
      rw [List.append_assoc, List.cons_append, split_line whole ends, split_line whole ends, ih]
      simp only [List.cons_append]

/-! ## All lines -/

variable (isBreak) in
/-- The lines of a text, the last one without a break. -/
def pieces (text : List α) : List (List α) := (split isBreak text).1 ++ [(split isBreak text).2]

theorem pieces_unbroken {text : List α} (whole : ∀ char ∈ text, isBreak char = false) :
    pieces isBreak text = [text] := by
  rw [pieces, split_unbroken whole, List.nil_append]

/-- The finished lines of the first part stay. -/
theorem pieces_append (first second : List α) :
    pieces isBreak (first ++ second) =
      (split isBreak first).1 ++ pieces isBreak ((split isBreak first).2 ++ second) := by
  rw [pieces, split_append, pieces, List.append_assoc]

/-- A break ends a line and begins the next. -/
theorem pieces_break (first : List α) {char : α} (ends : isBreak char = true) (second : List α) :
    pieces isBreak (first ++ char :: second) = pieces isBreak first ++ pieces isBreak second := by
  simp only [pieces, split_append first, split_line (unbroken_last first) ends, List.append_assoc,
    List.cons_append, List.nil_append]

variable (isBreak) in
/-- A text is one line or has a first one. -/
theorem first_line (text : List α) : (∀ char ∈ text, isBreak char = false) ∨
    ∃ line char rest, text = line ++ char :: rest ∧ (∀ other ∈ line, isBreak other = false) ∧
      isBreak char = true := by
  induction text using line_induction isBreak with
  | unbroken text whole => exact .inl whole
  | line line char rest whole ends ih => exact .inr ⟨line, char, rest, rfl, whole, ends⟩

/-- The characters of a line stand in the text. -/
theorem mem_pieces {text line : List α} (listed : line ∈ pieces isBreak text) :
    ∀ char ∈ line, char ∈ text := by
  induction text using line_induction isBreak with
  | unbroken text whole =>
      rw [pieces_unbroken whole, List.mem_singleton] at listed
      exact fun char member => listed ▸ member
  | line first char text whole ends ih =>
      rw [pieces_break first ends, pieces_unbroken whole, List.singleton_append,
        List.mem_cons] at listed
      intro other member
      rw [List.mem_append, List.mem_cons]
      rcases listed with rfl | later
      · exact .inl member
      · exact .inr (.inr (ih later other member))

end Lines
