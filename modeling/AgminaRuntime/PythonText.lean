import AgminaRuntime.CodePoints
import Mathlib.Algebra.Order.Ring.Int
import Mathlib.Data.List.Basic

/-!
# Python strings and their way through JSON

A Python `str` is a sequence of code points and may hold surrogates, which a
Lean `String` cannot.  Text that a provider controls reaches the journal as
such a string: `json.dumps` with `ensure_ascii` writes every surrogate as an
escape, and the strict reader joins an escaped pair into one code point and
refuses an unpaired one.
-/

namespace AgminaRuntime

/-- A Unicode code point, surrogates included. -/
abbrev CodePoint := Fin 0x110000

/-- A Python `str`. -/
structure PyStr where
  points : List CodePoint
  deriving DecidableEq

namespace PyStr

/-- The Python string with the characters of a Lean string. -/
def ofString (text : String) : PyStr :=
  ⟨text.toList.map fun char => Fin.ofNat 0x110000 char.toNat⟩

instance : Coe String PyStr := ⟨ofString⟩

instance : Append PyStr := ⟨fun first second => ⟨first.points ++ second.points⟩⟩

/-- `len(text)`. -/
def length (text : PyStr) : Nat := text.points.length

/-- `needle in text`. -/
def contains (text needle : PyStr) : Bool :=
  text.points.tails.any fun suffix => needle.points.isPrefixOf suffix

def isHighSurrogate (point : CodePoint) : Bool :=
  0xD800 ≤ point.val && point.val ≤ 0xDBFF

def isLowSurrogate (point : CodePoint) : Bool :=
  0xDC00 ≤ point.val && point.val ≤ 0xDFFF

def isSurrogate (point : CodePoint) : Bool :=
  isHighSurrogate point || isLowSurrogate point

/-- The code point that an escaped surrogate pair stands for. -/
def joinPair (high low : CodePoint) : CodePoint :=
  Fin.ofNat 0x110000 (0x10000 + (high.val - 0xD800) * 0x400 + (low.val - 0xDC00))

/-- What the strict JSON reader makes of the escapes that were written. -/
def reparsePoints : List CodePoint → Option (List CodePoint)
  | [] => some []
  | [point] => if isSurrogate point then none else some [point]
  | first :: second :: rest =>
      if isHighSurrogate first && isLowSurrogate second then
        (reparsePoints rest).map (joinPair first second :: ·)
      else if isSurrogate first then none
      else (reparsePoints (second :: rest)).map (first :: ·)

/-- Write the string as a JSON string and read it back. -/
def reparse (text : PyStr) : Option PyStr :=
  (reparsePoints text.points).map PyStr.mk

/-- Write a field that may be `null` and read it back. -/
def reparseOption : Option PyStr → Option (Option PyStr)
  | none => some none
  | some text => text.reparse.map some

/-- A string without surrogates is read back as it was written. -/
theorem reparsePoints_eq_self {points : List CodePoint}
    (clean : ∀ point ∈ points, isSurrogate point = false) :
    reparsePoints points = some points := by
  induction points with
  | nil => rfl
  | cons first rest ih =>
      have firstClean := clean first (by simp)
      have restClean := ih fun point member => clean point (by simp [member])
      have notHigh : isHighSurrogate first = false := by
        simp only [isSurrogate, Bool.or_eq_false_iff] at firstClean
        exact firstClean.1
      cases rest with
      | nil => simp [reparsePoints, firstClean]
      | cons second rest => simp [reparsePoints, notHigh, firstClean, restClean]

theorem reparse_ofString (text : String) : (ofString text).reparse = some (ofString text) := by
  unfold reparse
  rw [reparsePoints_eq_self]
  · rfl
  · intro point member
    simp only [ofString, List.mem_map] at member
    obtain ⟨char, _, rfl⟩ := member
    have bound := char.valid
    have value : char.toNat = char.val.toNat := rfl
    have small : char.toNat < 0x110000 := by
      rcases bound with low | high
      · have : char.val.toNat < 0xD800 := low
        omega
      · exact high.2
    simp only [isSurrogate, isHighSurrogate, isLowSurrogate, Fin.val_ofNat,
      Nat.mod_eq_of_lt small, Bool.or_eq_false_iff, Bool.and_eq_false_iff,
      decide_eq_false_iff_not]
    rcases bound with low | high
    · have : char.val.toNat < 0xD800 := low
      omega
    · have : 0xDFFF < char.val.toNat := high.1
      omega

private theorem isSurrogate_joinPair {high low : CodePoint} (isHigh : isHighSurrogate high = true)
    (isLow : isLowSurrogate low = true) : isSurrogate (joinPair high low) = false := by
  simp only [isHighSurrogate, isLowSurrogate, Bool.and_eq_true, decide_eq_true_eq] at isHigh isLow
  have small : 0x10000 + (high.val - 0xD800) * 0x400 + (low.val - 0xDC00) < 0x110000 := by omega
  simp only [isSurrogate, isHighSurrogate, isLowSurrogate, joinPair, Fin.val_ofNat,
    Nat.mod_eq_of_lt small, Bool.or_eq_false_iff, Bool.and_eq_false_iff, decide_eq_false_iff_not]
  omega

/-- What the reader returns holds no surrogate. -/
theorem reparsePoints_clean {points result : List CodePoint}
    (parsed : reparsePoints points = some result) :
    ∀ point ∈ result, isSurrogate point = false := by
  induction points using reparsePoints.induct generalizing result with
  | case1 =>
      simp only [reparsePoints, Option.some.injEq] at parsed
      simp [← parsed]
  | case2 point surrogate => simp [reparsePoints, surrogate] at parsed
  | case3 point clean =>
      simp only [reparsePoints, clean, Bool.false_eq_true, if_false, Option.some.injEq] at parsed
      simpa [← parsed] using clean
  | case4 first second rest pair ih =>
      simp only [reparsePoints, pair, if_true, Option.map_eq_some_iff] at parsed
      obtain ⟨tail, tailParsed, rfl⟩ := parsed
      simp only [Bool.and_eq_true] at pair
      intro point member
      rcases List.mem_cons.mp member with rfl | later
      · exact isSurrogate_joinPair pair.1 pair.2
      · exact ih tailParsed point later
  | case5 first second rest pair surrogate => simp [reparsePoints, pair, surrogate] at parsed
  | case6 first second rest pair clean ih =>
      simp only [reparsePoints, pair, clean, Bool.false_eq_true, if_false,
        Option.map_eq_some_iff] at parsed
      obtain ⟨tail, tailParsed, rfl⟩ := parsed
      intro point member
      rcases List.mem_cons.mp member with rfl | later
      · simpa using clean
      · exact ih tailParsed point later

/-- A string that was read is read back as it is. -/
theorem reparse_of_reparse {text parsed : PyStr} (first : text.reparse = some parsed) :
    parsed.reparse = some parsed := by
  simp only [reparse, Option.map_eq_some_iff] at first
  obtain ⟨points, pointsParsed, rfl⟩ := first
  simp only [reparse, reparsePoints_eq_self (reparsePoints_clean pointsParsed), Option.map_some]

/-- A field that is read back as it was written. -/
def Plain (text : Option PyStr) : Prop :=
  reparseOption text = some text

instance (text : Option PyStr) : Decidable (Plain text) :=
  inferInstanceAs (Decidable (reparseOption text = some text))

theorem plain_none : Plain none := rfl

theorem plain_ofString (text : String) : Plain (some (ofString text)) := by
  simp [Plain, reparseOption, reparse_ofString]

theorem reparseOption_of_reparseOption {text parsed : Option PyStr}
    (first : reparseOption text = some parsed) : reparseOption parsed = some parsed := by
  cases text with
  | none =>
      simp only [reparseOption, Option.some.injEq] at first
      rw [← first]
      rfl
  | some text =>
      simp only [reparseOption, Option.map_eq_some_iff] at first
      obtain ⟨result, resultParsed, rfl⟩ := first
      simp [reparseOption, reparse_of_reparse resultParsed]

end PyStr

end AgminaRuntime
