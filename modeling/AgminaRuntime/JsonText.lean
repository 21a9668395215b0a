import AgminaRuntime.CodePoints
import Mathlib.Algebra.Order.Ring.Int
import Mathlib.Data.List.Basic
import Mathlib.Data.List.Chain
import Mathlib.Data.List.TakeWhile

/-!
# JSON values and their lexical parts

Values as Python's `json` builds them: integers of any size, floating-point
numbers of a given kind, strings of code points that may hold surrogates, and
objects as lists of members in their order.  Beside them the lexical parts of
a JSON text: white space, numbers and the contents of strings.
-/

namespace Json

/-- A Unicode code point, surrogates included. -/
abbrev Point := Fin 0x110000

instance lawfulBEq_points : LawfulBEq (List Point) := inferInstance

/-- The code point of a character. -/
def pointOf (char : Char) : Point := Fin.ofNat 0x110000 char.toNat

inductive Value (φ : Type) where
  | null
  | bool (value : Bool)
  | int (value : Int)
  | float (value : φ)
  | str (points : List Point)
  | arr (items : List (Value φ))
  | obj (members : List (List Point × Value φ))

/-- The words that Python reads beside the JSON grammar. -/
inductive Constant
  | nan
  | infinity
  | negativeInfinity
  deriving DecidableEq

def Constant.text : Constant → List Char
  | .nan => ['N', 'a', 'N']
  | .infinity => ['I', 'n', 'f', 'i', 'n', 'i', 't', 'y']
  | .negativeInfinity => ['-', 'I', 'n', 'f', 'i', 'n', 'i', 't', 'y']

/-- The floating-point numbers of an implementation, as far as JSON shows them. -/
class Floats (φ : Type) where
  /-- `float(text)`. -/
  read : List Char → φ
  /-- `float.__repr__`. -/
  write : φ → List Char
  finite : φ → Bool
  constant : Constant → φ

/-- What `JSONDecodeError` says. -/
inductive DecodeFault
  | expectingValue
  | expectingName
  | expectingColon
  | expectingComma
  | unterminatedString
  | invalidControl
  | invalidEscape
  | extraData
  deriving DecidableEq

/-- Why a text is not read: a `JSONDecodeError`, another `ValueError`, or a
`RecursionError`. -/
inductive Fault
  | decode (fault : DecodeFault)
  | value (text : String)
  | recursion
  deriving DecidableEq

/-- A reader returns a value and the text behind it. -/
abbrev Scan (α : Type) := Except Fault (α × List Char)

namespace Scan

variable {α β : Type}

/-- Go on with the text behind what was read. -/
def andThen (scanned : Scan α) (next : α → List Char → Scan β) : Scan β :=
  match scanned with
  | .error fault => .error fault
  | .ok (value, rest) => next value rest

@[simp]
theorem andThen_ok (value : α) (rest : List Char) (next : α → List Char → Scan β) :
    andThen (.ok (value, rest)) next = next value rest := rfl

theorem andThen_eq_ok {scanned : Scan α} {next : α → List Char → Scan β}
    {result : β × List Char} :
    scanned.andThen next = .ok result ↔
      ∃ value rest, scanned = .ok (value, rest) ∧ next value rest = .ok result := by
  cases scanned with
  | error fault => simp [andThen]
  | ok read =>
      obtain ⟨value, rest⟩ := read
      simp

end Scan

/-! ## White space -/

def skipSpace (text : List Char) : List Char := text.dropWhile Char.isWhitespace

/-- The text is white space. -/
def Space (text : List Char) : Prop := ∀ char ∈ text, char.isWhitespace = true

theorem skipSpace_of_space {space : List Char} (blank : Space space) (rest : List Char) :
    skipSpace (space ++ rest) = skipSpace rest :=
  List.dropWhile_append_of_pos blank

theorem skipSpace_cons {char : Char} (solid : char.isWhitespace = false) (rest : List Char) :
    skipSpace (char :: rest) = char :: rest := by
  simp [skipSpace, solid]

/-- What is skipped is white space. -/
theorem skipSpace_split (text : List Char) :
    ∃ space, Space space ∧ text = space ++ skipSpace text := by
  refine ⟨text.takeWhile Char.isWhitespace, ?_, (List.takeWhile_append_dropWhile).symm⟩
  exact fun char member => List.mem_takeWhile_imp member

/-! ## Numbers -/

/-- The parts of a number: the fraction with its point, the exponent with its
letter and sign. -/
structure Number where
  negative : Bool
  digits : List Char
  fraction : List Char
  exponent : List Char
  deriving DecidableEq

def takeSign : List Char → Bool × List Char
  | '-' :: rest => (true, rest)
  | text => (false, text)

/-- `0|[1-9][0-9]*` -/
def takeInteger : List Char → Option (List Char × List Char)
  | '0' :: rest => some (['0'], rest)
  | char :: rest =>
      if char.isDigit then some (char :: rest.takeWhile Char.isDigit, rest.dropWhile Char.isDigit)
      else none
  | [] => none

/-- `(\.[0-9]+)?` -/
def takeFraction : List Char → List Char × List Char
  | '.' :: char :: rest =>
      if char.isDigit then
        ('.' :: char :: rest.takeWhile Char.isDigit, rest.dropWhile Char.isDigit)
      else ([], '.' :: char :: rest)
  | text => ([], text)

/-- `[0-9]+` behind the letter and the sign of an exponent. -/
def takeExponentDigits (lead text : List Char) : List Char → List Char × List Char
  | char :: rest =>
      if char.isDigit then
        (lead ++ char :: rest.takeWhile Char.isDigit, rest.dropWhile Char.isDigit)
      else ([], text)
  | [] => ([], text)

/-- `([eE][-+]?[0-9]+)?` -/
def takeExponent : List Char → List Char × List Char
  | letter :: sign :: rest =>
      if letter = 'e' ∨ letter = 'E' then
        if sign = '-' ∨ sign = '+' then
          takeExponentDigits [letter, sign] (letter :: sign :: rest) rest
        else takeExponentDigits [letter] (letter :: sign :: rest) (sign :: rest)
      else ([], letter :: sign :: rest)
  | text => ([], text)

/-- The longest number at the start of a text. -/
def scanNumber (text : List Char) : Option (Number × List Char) := do
  let signed := takeSign text
  let (digits, afterDigits) ← takeInteger signed.2
  let fractional := takeFraction afterDigits
  let exponential := takeExponent fractional.2
  pure (⟨signed.1, digits, fractional.1, exponential.1⟩, exponential.2)

/-- No number goes on in the text. -/
def Ends (text : List Char) : Prop :=
  ∀ char ∈ text.head?, char.isDigit = false ∧ char ∉ ['.', 'e', 'E', '+', '-']

theorem ends_nil : Ends [] := by simp [Ends]

theorem ends_cons {char : Char} (solid : char.isDigit = false)
    (other : char ∉ ['.', 'e', 'E', '+', '-']) (rest : List Char) : Ends (char :: rest) := by
  intro first same
  obtain rfl : char = first := by simpa using same
  exact ⟨solid, other⟩

theorem isDigit_of_isWhitespace {char : Char} (blank : char.isWhitespace = true) :
    char.isDigit = false ∧ char ∉ ['.', 'e', 'E', '+', '-'] := by
  simp only [Char.isWhitespace, Bool.or_eq_true, decide_eq_true_eq] at blank
  rcases blank with ((rfl | rfl) | rfl) | rfl <;> decide

theorem ends_space {space rest : List Char} (blank : Space space) (ends : Ends rest) :
    Ends (space ++ rest) := by
  cases space with
  | nil => exact ends
  | cons char space =>
      have solid := isDigit_of_isWhitespace (blank char List.mem_cons_self)
      exact ends_cons solid.1 solid.2 _

section Locality

variable {rest : List Char} (ends : Ends rest)
include ends

theorem takeWhile_isDigit_append (text : List Char) :
    (text ++ rest).takeWhile Char.isDigit = text.takeWhile Char.isDigit := by
  induction text with
  | nil =>
      cases rest with
      | nil => rfl
      | cons char rest => simp [(ends char rfl).1]
  | cons char text ih => cases digit : char.isDigit <;> simp [digit, ih]

theorem dropWhile_isDigit_append (text : List Char) :
    (text ++ rest).dropWhile Char.isDigit = text.dropWhile Char.isDigit ++ rest := by
  induction text with
  | nil =>
      cases rest with
      | nil => rfl
      | cons char rest => simp [(ends char rfl).1]
  | cons char text ih => cases digit : char.isDigit <;> simp [digit, ih]

theorem takeSign_append (text : List Char) :
    takeSign (text ++ rest) = ((takeSign text).1, (takeSign text).2 ++ rest) := by
  cases text with
  | nil =>
      cases rest with
      | nil => rfl
      | cons char rest =>
          have other := (ends char rfl).2
          simp only [List.mem_cons, not_or] at other
          simp only [List.nil_append]
          unfold takeSign
          split
          · simp_all
          · rfl
  | cons char text =>
      unfold takeSign
      split <;> simp_all

theorem takeInteger_append (text : List Char) :
    takeInteger (text ++ rest) =
      (takeInteger text).map fun taken => (taken.1, taken.2 ++ rest) := by
  cases text with
  | nil =>
      cases rest with
      | nil => rfl
      | cons char rest =>
          have solid := (ends char rfl).1
          simp only [List.nil_append]
          unfold takeInteger
          split
          · simp_all [Char.isDigit]
          · simp_all
          · simp_all
  | cons char text =>
      by_cases zero : char = '0'
      · subst zero
        rfl
      · simp only [List.cons_append, takeInteger, takeWhile_isDigit_append ends,
          dropWhile_isDigit_append ends]
        split <;> simp

theorem takeFraction_append (text : List Char) :
    takeFraction (text ++ rest) = ((takeFraction text).1, (takeFraction text).2 ++ rest) := by
  have plain : ∀ other : List Char, other.head? ≠ some '.' → takeFraction other = ([], other) := by
    intro other differs
    unfold takeFraction
    split
    · simp at differs
    · rfl
  have tail : rest.head? ≠ some '.' := by
    intro same
    simpa using (ends '.' same).2
  match text with
  | [] => rw [List.nil_append, plain rest tail]; rfl
  | [char] =>
      by_cases point : char = '.'
      · subst point
        cases rest with
        | nil => rfl
        | cons next rest => simp [takeFraction, (ends next rfl).1]
      · rw [plain _ (by simpa using point), plain _ (by simpa using point)]
  | char :: next :: text =>
      by_cases point : char = '.'
      · subst point
        simp only [List.cons_append, takeFraction, takeWhile_isDigit_append ends,
          dropWhile_isDigit_append ends]
        split <;> simp
      · rw [plain _ (by simpa using point), plain _ (by simpa using point)]

theorem takeExponentDigits_append (lead whole text : List Char) :
    takeExponentDigits lead (whole ++ rest) (text ++ rest) =
      ((takeExponentDigits lead whole text).1, (takeExponentDigits lead whole text).2 ++ rest) := by
  cases text with
  | nil =>
      cases rest with
      | nil => simp [takeExponentDigits]
      | cons char rest => simp [takeExponentDigits, (ends char rfl).1]
  | cons char text =>
      simp only [List.cons_append, takeExponentDigits, takeWhile_isDigit_append ends,
        dropWhile_isDigit_append ends]
      split <;> simp

theorem takeExponent_append (text : List Char) :
    takeExponent (text ++ rest) = ((takeExponent text).1, (takeExponent text).2 ++ rest) := by
  have plain : ∀ other : List Char, (∀ char ∈ other.head?, char ≠ 'e' ∧ char ≠ 'E') →
      takeExponent other = ([], other) := by
    intro other differs
    unfold takeExponent
    split
    · simp_all
    · rfl
  have tail : ∀ char ∈ rest.head?, char ≠ 'e' ∧ char ≠ 'E' := by
    intro char same
    have other := (ends char same).2
    simp only [List.mem_cons, not_or] at other
    exact ⟨other.2.1, other.2.2.1⟩
  match text with
  | [] => rw [List.nil_append, plain rest tail]; rfl
  | [letter] =>
      cases rest with
      | nil => rfl
      | cons next rest =>
          have other := (ends next rfl).2
          simp only [List.mem_cons, not_or] at other
          simp [takeExponent, takeExponentDigits, (ends next rfl).1, other.2.2.2.1, other.2.2.2.2.1]
  | letter :: sign :: text =>
      simp only [List.cons_append, takeExponent]
      split
      · split
        · exact takeExponentDigits_append ends _ (letter :: sign :: text) text
        · exact takeExponentDigits_append ends _ (letter :: sign :: text) (sign :: text)
      · rfl

/-- What follows a number does not change how it is read. -/
theorem scanNumber_append (text : List Char) :
    scanNumber (text ++ rest) =
      (scanNumber text).map fun scanned => (scanned.1, scanned.2 ++ rest) := by
  simp only [scanNumber, takeSign_append ends, takeInteger_append ends]
  cases takeInteger (takeSign text).2 with
  | none => rfl
  | some taken =>
      simp only [Option.map_some, Option.bind_eq_bind, Option.bind_some, takeFraction_append ends,
        takeExponent_append ends, Option.pure_def]

end Locality

def Number.text (number : Number) : List Char :=
  (if number.negative then ['-'] else []) ++ number.digits ++ number.fraction ++ number.exponent

theorem takeSign_split (text : List Char) :
    text = (if (takeSign text).1 then ['-'] else []) ++ (takeSign text).2 := by
  unfold takeSign
  split <;> rfl

theorem takeInteger_split {text digits rest : List Char}
    (taken : takeInteger text = some (digits, rest)) : text = digits ++ rest := by
  unfold takeInteger at taken
  split at taken
  · obtain ⟨rfl, rfl⟩ := Prod.mk.inj (Option.some.inj taken)
    rfl
  · split at taken
    · obtain ⟨rfl, rfl⟩ := Prod.mk.inj (Option.some.inj taken)
      simp
    · contradiction
  · contradiction

theorem takeFraction_split (text : List Char) :
    text = (takeFraction text).1 ++ (takeFraction text).2 := by
  unfold takeFraction
  split
  · split <;> simp
  · rfl

theorem takeExponentDigits_split {lead whole text : List Char} (same : whole = lead ++ text) :
    whole = (takeExponentDigits lead whole text).1 ++ (takeExponentDigits lead whole text).2 := by
  unfold takeExponentDigits
  split
  · split <;> simp [same]
  · rfl

theorem takeExponent_split (text : List Char) :
    text = (takeExponent text).1 ++ (takeExponent text).2 := by
  unfold takeExponent
  split
  · split
    · split <;> exact takeExponentDigits_split rfl
    · rfl
  · rfl

/-- The number that was read stands before what is left. -/
theorem scanNumber_split {text rest : List Char} {number : Number}
    (scanned : scanNumber text = some (number, rest)) : text = number.text ++ rest := by
  simp only [scanNumber, Option.bind_eq_bind, Option.bind_eq_some_iff, Option.pure_def,
    Option.some.injEq, Prod.mk.injEq, Prod.exists] at scanned
  obtain ⟨digits, after, taken, rfl, rfl⟩ := scanned
  have sign := takeSign_split text
  have integer := takeInteger_split taken
  have fraction := takeFraction_split after
  have exponent := takeExponent_split (takeFraction after).2
  calc text = (if (takeSign text).1 then ['-'] else []) ++ (takeSign text).2 := sign
    _ = (if (takeSign text).1 then ['-'] else []) ++ (digits ++ ((takeFraction after).1 ++
          ((takeExponent (takeFraction after).2).1 ++ (takeExponent (takeFraction after).2).2))) := by
        rw [← exponent, ← fraction, ← integer]
    _ = _ := by simp only [Number.text, List.append_assoc]

/-- A number that ends where it can ends is read by itself. -/
theorem scanNumber_alone {text rest : List Char} {number : Number} (ends : Ends rest)
    (scanned : scanNumber text = some (number, rest)) :
    scanNumber number.text = some (number, []) := by
  have split := scanNumber_split scanned
  rw [split, scanNumber_append ends] at scanned
  cases alone : scanNumber number.text with
  | none => simp [alone] at scanned
  | some result =>
      simp only [alone, Option.map_some, Option.some.injEq, Prod.mk.injEq,
        List.append_left_eq_self] at scanned
      rw [← scanned.1, ← scanned.2]

/-- A number begins with a digit or with a sign. -/
theorem scanNumber_head {text rest : List Char} {number : Number}
    (scanned : scanNumber text = some (number, rest)) :
    ∃ char tail, text = char :: tail ∧ (char = '-' ∨ char.isDigit = true) := by
  cases text with
  | nil => simp [scanNumber, takeSign, takeInteger] at scanned
  | cons char tail =>
      refine ⟨char, tail, rfl, ?_⟩
      by_cases sign : char = '-'
      · exact .inl sign
      · right
        by_contra solid
        have signed : takeSign (char :: tail) = (false, char :: tail) := by
          unfold takeSign
          split <;> simp_all
        have zero : char ≠ '0' := by
          rintro rfl
          exact solid rfl
        simp [scanNumber, signed, takeInteger, solid] at scanned

/-- `sys.get_int_max_str_digits()`. -/
def maxDigits : Nat := 4300

/-- `int(...)` for an integer, under a limit of its digits, and `float(...)` for a
number with a fraction or an exponent. -/
def Number.value {φ : Type} [Floats φ] (limit : Option Nat) (number : Number) :
    Except Fault (Value φ) :=
  if number.fraction = [] ∧ number.exponent = [] then
    if limit.any (· < number.digits.length) then
      .error (.value "Exceeds the limit (4300 digits) for integer string conversion")
    else
      let size : Int := Nat.ofDigitChars 10 number.digits 0
      .ok (.int (if number.negative then -size else size))
  else .ok (.float (Floats.read number.text))

/-! ## Strings -/

def hexDigit (char : Char) : Option Nat :=
  if '0' ≤ char ∧ char ≤ '9' then some (char.toNat - '0'.toNat)
  else if 'a' ≤ char ∧ char ≤ 'f' then some (char.toNat - 'a'.toNat + 10)
  else if 'A' ≤ char ∧ char ≤ 'F' then some (char.toNat - 'A'.toNat + 10)
  else none

/-- The code point of `\uXXXX`. -/
def hexPoint (first second third fourth : Char) : Option Point := do
  let first ← hexDigit first
  let second ← hexDigit second
  let third ← hexDigit third
  let fourth ← hexDigit fourth
  pure (Fin.ofNat 0x110000 (((first * 16 + second) * 16 + third) * 16 + fourth))

/-- The code point of a short escape. -/
def shortEscape : Char → Option Point
  | '"' => some 0x22
  | '\\' => some 0x5C
  | '/' => some 0x2F
  | 'b' => some 0x08
  | 'f' => some 0x0C
  | 'n' => some 0x0A
  | 'r' => some 0x0D
  | 't' => some 0x09
  | _ => none

/-- Put a code point before what a reader has returned. -/
def Scan.prepend (point : Point) (scanned : Scan (List Point)) : Scan (List Point) :=
  scanned.andThen fun points rest => .ok (point :: points, rest)

/-- The units of a string up to its closing quote: an escape is one unit. -/
def scanUnits : List Char → Scan (List Point)
  | [] => .error (.decode .unterminatedString)
  | '"' :: rest => .ok ([], rest)
  | '\\' :: 'u' :: first :: second :: third :: fourth :: rest =>
      match hexPoint first second third fourth with
      | none => .error (.decode .invalidEscape)
      | some point => Scan.prepend point (scanUnits rest)
  | '\\' :: char :: rest =>
      match shortEscape char with
      | none => .error (.decode .invalidEscape)
      | some point => Scan.prepend point (scanUnits rest)
  | char :: rest =>
      if char = '\\' then .error (.decode .unterminatedString)
      else if char.toNat < 0x20 then .error (.decode .invalidControl)
      else Scan.prepend (pointOf char) (scanUnits rest)

/-- One unit of the contents of a string. -/
inductive UnitText : Point → List Char → Prop
  | plain {char : Char} (quote : char ≠ '"') (slash : char ≠ '\\') (control : ¬ char.toNat < 0x20) :
      UnitText (pointOf char) [char]
  | short {char : Char} {point : Point} (escape : shortEscape char = some point) :
      UnitText point ['\\', char]
  | hex {first second third fourth : Char} {point : Point}
      (escape : hexPoint first second third fourth = some point) :
      UnitText point ['\\', 'u', first, second, third, fourth]

/-- The contents of a string, unit by unit. -/
inductive UnitsText : List Point → List Char → Prop
  | nil : UnitsText [] []
  | cons {point : Point} {points : List Point} {unit text : List Char} (first : UnitText point unit)
      (rest : UnitsText points text) : UnitsText (point :: points) (unit ++ text)

theorem UnitsText.append {first second : List Point} {early late : List Char}
    (earlier : UnitsText first early) (later : UnitsText second late) :
    UnitsText (first ++ second) (early ++ late) := by
  induction earlier with
  | nil => exact later
  | cons unit _ ih =>
      rw [List.cons_append, List.append_assoc]
      exact .cons unit ih

/-- One unit is read off a string. -/
theorem UnitText.scan {point : Point} {unit : List Char} (spelled : UnitText point unit)
    (rest : List Char) : scanUnits (unit ++ rest) = Scan.prepend point (scanUnits rest) := by
  cases spelled with
  | @plain char quote slash control =>
      rw [List.singleton_append, scanUnits.eq_def]
      split
      · contradiction
      · simp_all
      · simp_all
      · simp_all
      · rename_i same
        obtain ⟨rfl, rfl⟩ := List.cons.inj same
        rw [if_neg slash, if_neg control]
  | @short char point escape =>
      have other : char ≠ 'u' := by
        rintro rfl
        simp [shortEscape] at escape
      rw [List.cons_append, List.singleton_append, scanUnits.eq_def]
      split
      · contradiction
      · simp_all
      · simp_all
      · simp_all
      · rename_i single same
        obtain ⟨rfl, rfl⟩ := List.cons.inj same
        exact absurd rfl (single _ _ rfl)
  | hex escape => simp [scanUnits, escape]

theorem UnitsText.scan {points : List Point} {text : List Char} (spelled : UnitsText points text)
    (rest : List Char) : scanUnits (text ++ '"' :: rest) = .ok (points, rest) := by
  induction spelled with
  | nil => simp [scanUnits]
  | cons unit _ ih =>
      rw [List.append_assoc, unit.scan, ih]
      rfl

theorem Scan.prepend_ok {point : Point} {scanned : Scan (List Point)} {points : List Point}
    {rest : List Char} (read : Scan.prepend point scanned = .ok (points, rest)) :
    ∃ tail, scanned = .ok (tail, rest) ∧ points = point :: tail := by
  cases scanned with
  | error fault => contradiction
  | ok result =>
      obtain ⟨rfl, rfl⟩ := Prod.mk.inj (Except.ok.inj read)
      exact ⟨_, rfl, rfl⟩

/-- What was read as the contents of a string spells it. -/
theorem scanUnits_spelled {text rest : List Char} {points : List Point}
    (scanned : scanUnits text = .ok (points, rest)) :
    ∃ unit, text = unit ++ '"' :: rest ∧ UnitsText points unit := by
  fun_induction scanUnits text generalizing rest points with
  | case1 => contradiction
  | case2 tail =>
      obtain ⟨rfl, rfl⟩ := Prod.mk.inj (Except.ok.inj scanned)
      exact ⟨[], rfl, .nil⟩
  | case3 => contradiction
  | case4 first second third fourth tail point escape ih =>
      obtain ⟨points, inner, rfl⟩ := Scan.prepend_ok scanned
      obtain ⟨unit, split, spelled⟩ := ih inner
      exact ⟨_, by rw [split]; rfl, .cons (.hex escape) spelled⟩
  | case5 => contradiction
  | case6 char tail _ point escape ih =>
      obtain ⟨points, inner, rfl⟩ := Scan.prepend_ok scanned
      obtain ⟨unit, split, spelled⟩ := ih inner
      exact ⟨_, by rw [split]; rfl, .cons (.short escape) spelled⟩
  | case7 => contradiction
  | case8 => contradiction
  | case9 char tail quote _ _ slash control ih =>
      obtain ⟨points, inner, rfl⟩ := Scan.prepend_ok scanned
      obtain ⟨unit, split, spelled⟩ := ih inner
      exact ⟨_, by rw [split]; rfl, .cons (.plain (fun same => quote same) slash control) spelled⟩

def isHighSurrogate (point : Point) : Bool :=
  0xD800 ≤ point.val && point.val ≤ 0xDBFF

def isLowSurrogate (point : Point) : Bool :=
  0xDC00 ≤ point.val && point.val ≤ 0xDFFF

/-- The code point that a surrogate pair stands for. -/
def joinPair (high low : Point) : Point :=
  Fin.ofNat 0x110000 (0x10000 + (high.val - 0xD800) * 0x400 + (low.val - 0xDC00))

/-- Escaped surrogate pairs become one code point; a text holds no surrogate
that is not escaped. -/
def joinPairs : List Point → List Point
  | [] => []
  | [point] => [point]
  | first :: second :: rest =>
      if isHighSurrogate first && isLowSurrogate second then
        joinPair first second :: joinPairs rest
      else first :: joinPairs (second :: rest)

/-- No surrogate pair is left in two code points. -/
def Joined (points : List Point) : Prop :=
  points.IsChain fun first second => ¬ (isHighSurrogate first && isLowSurrogate second) = true

theorem not_surrogate_joinPair {high low : Point} (isHigh : isHighSurrogate high = true)
    (isLow : isLowSurrogate low = true) :
    isHighSurrogate (joinPair high low) = false ∧ isLowSurrogate (joinPair high low) = false := by
  simp only [isHighSurrogate, isLowSurrogate, Bool.and_eq_true, decide_eq_true_eq] at isHigh isLow
  have small : 0x10000 + (high.val - 0xD800) * 0x400 + (low.val - 0xDC00) < 0x110000 := by omega
  simp only [isHighSurrogate, isLowSurrogate, joinPair, Fin.val_ofNat, Nat.mod_eq_of_lt small,
    Bool.and_eq_false_iff, decide_eq_false_iff_not]
  omega

/-- Joining leaves a low surrogate in front only where one was. -/
theorem head_joinPairs {points : List Point} {point : Point} (first : point ∈ (joinPairs points).head?)
    (isLow : isLowSurrogate point = true) : point ∈ points.head? := by
  match points with
  | [] => simp [joinPairs] at first
  | [single] => exact first
  | high :: low :: rest =>
      rw [joinPairs] at first
      split at first
      · rename_i pair
        rw [Bool.and_eq_true] at pair
        obtain rfl : joinPair high low = point := by simpa using first
        rw [(not_surrogate_joinPair pair.1 pair.2).2] at isLow
        contradiction
      · simpa using first

/-- What the reader makes of a string is joined. -/
theorem joined_joinPairs (points : List Point) : Joined (joinPairs points) := by
  fun_induction joinPairs points with
  | case1 => exact .nil
  | case2 point => exact .singleton _
  | case3 high low rest pair ih =>
      rw [Bool.and_eq_true] at pair
      refine List.isChain_cons.mpr ⟨fun next _ => ?_, ih⟩
      simp [(not_surrogate_joinPair pair.1 pair.2).1]
  | case4 first second rest apart ih =>
      refine List.isChain_cons.mpr ⟨fun next head both => ?_, ih⟩
      rw [Bool.and_eq_true] at both
      obtain rfl : second = next := by simpa using head_joinPairs head both.2
      exact apart (by rw [both.1, both.2]; rfl)

end Json
