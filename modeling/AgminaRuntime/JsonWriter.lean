import AgminaRuntime.JsonScanner
import Mathlib.Data.List.Lex
import Mathlib.Data.List.Sort

/-!
# Writing JSON

The compact writer of Python's `json`, with its escapes either for every
character beyond ASCII or for none, and with the members of objects in their
order or sorted by name.  What is written in ASCII is read back as it was.
-/

namespace Json

variable {φ : Type} [Floats φ] {α : Type}

/-- How characters are put into a text. -/
structure Ink (α : Type) where
  char : Char → α
  point : Point → List α

def hexChar (value : Nat) : Char := Nat.digitChar value

/-- `\uXXXX` -/
def hexEscape (value : Nat) : List Char :=
  ['\\', 'u', hexChar (value / 4096 % 16), hexChar (value / 256 % 16), hexChar (value / 16 % 16),
    hexChar (value % 16)]

/-- The code points that are written with a short escape. -/
def shortEscapes : List (Point × Char) :=
  [(0x22, '"'), (0x5C, '\\'), (0x0A, 'n'), (0x0D, 'r'), (0x09, 't'), (0x0C, 'f'), (0x08, 'b')]

def highSurrogate (value : Nat) : Nat := 0xD800 + (value - 0x10000) / 0x400
def lowSurrogate (value : Nat) : Nat := 0xDC00 + (value - 0x10000) % 0x400

/-- A code point in ASCII. -/
def asciiPoint (point : Point) : List Char :=
  match shortEscapes.lookup point with
  | some char => ['\\', char]
  | none =>
      if 0x20 ≤ point.val ∧ point.val ≤ 0x7E then [Char.ofNat point.val]
      else if point.val < 0x10000 then hexEscape point.val
      else hexEscape (highSurrogate point.val) ++ hexEscape (lowSurrogate point.val)

/-- `ensure_ascii=True` -/
def asciiInk : Ink Char := ⟨id, asciiPoint⟩

/-- `ensure_ascii=False`: only quotes, backslashes and control characters are
escaped. -/
def plainInk : Ink Point where
  char := pointOf
  point point :=
    match shortEscapes.lookup point with
    | some char => ['\\', char].map pointOf
    | none => if point.val < 0x20 then (hexEscape point.val).map pointOf else [point]

namespace Ink

def word (ink : Ink α) (text : List Char) : List α := text.map ink.char

def quoted (ink : Ink α) (points : List Point) : List α :=
  ink.char '"' :: (points.flatMap ink.point ++ [ink.char '"'])

end Ink

/-- `int.__repr__`. -/
def intText (value : Int) : List Char :=
  (if value < 0 then ['-'] else []) ++ Nat.toDigits 10 value.natAbs

mutual

/-- `json.dumps(value, separators=(",", ":"))` -/
def write (ink : Ink α) : Value φ → List α
  | .null => ink.word ['n', 'u', 'l', 'l']
  | .bool true => ink.word ['t', 'r', 'u', 'e']
  | .bool false => ink.word ['f', 'a', 'l', 's', 'e']
  | .int value => ink.word (intText value)
  | .float value => ink.word (Floats.write value)
  | .str points => ink.quoted points
  | .arr items => ink.char '[' :: writeItems ink items
  | .obj members => ink.char '{' :: writeMembers ink members

def writeItems (ink : Ink α) : List (Value φ) → List α
  | [] => [ink.char ']']
  | [item] => write ink item ++ [ink.char ']']
  | item :: items => write ink item ++ ink.char ',' :: writeItems ink items

def writeMembers (ink : Ink α) : List (List Point × Value φ) → List α
  | [] => [ink.char '}']
  | [(name, item)] => ink.quoted name ++ ink.char ':' :: (write ink item ++ [ink.char '}'])
  | (name, item) :: members =>
      ink.quoted name ++ ink.char ':' :: (write ink item ++ ink.char ',' :: writeMembers ink members)

end

mutual

/-- Sort the members of every object by name: `sort_keys=True`. -/
def sortKeys : Value φ → Value φ
  | .arr items => .arr (sortItems items)
  | .obj members => .obj ((sortMembers members).insertionSort fun first second => first.1 ≤ second.1)
  | value => value

def sortItems : List (Value φ) → List (Value φ)
  | [] => []
  | item :: items => sortKeys item :: sortItems items

def sortMembers : List (List Point × Value φ) → List (List Point × Value φ)
  | [] => []
  | (name, item) :: members => (name, sortKeys item) :: sortMembers members

end

/-! ## What is written is spelled -/

theorem hexDigit_hexChar {value : Nat} (small : value < 16) :
    hexDigit (hexChar value) = some value := by
  have every : ∀ digit : Fin 16, hexDigit (hexChar digit) = some digit.val := by decide
  exact every ⟨value, small⟩

theorem hexEscape_unit {value : Nat} (small : value < 0x10000) :
    UnitText (Fin.ofNat 0x110000 value) (hexEscape value) := by
  apply UnitText.hex
  simp only [hexPoint, hexDigit_hexChar (Nat.mod_lt _ (by decide : 0 < 16)), Option.bind_eq_bind,
    Option.bind_some, Option.pure_def, Option.some.injEq]
  congr 1
  omega

/-- The units that a code point is written with. -/
def unitsOf (point : Point) : List Point :=
  if point.val < 0x10000 then [point]
  else [Fin.ofNat _ (highSurrogate point.val), Fin.ofNat _ (lowSurrogate point.val)]

theorem toNat_ofNat {value : Nat} (small : value < 0xD800) : (Char.ofNat value).toNat = value := by
  have valid : value.isValidChar := .inl small
  rw [Char.ofNat, dif_pos valid]
  rfl

/-- The short escapes are those that the reader knows. -/
theorem shortEscapes_read :
    ∀ entry ∈ shortEscapes, shortEscape entry.2 = some entry.1 ∧ entry.1.val < 0x10000 := by
  decide

theorem lookup_mem {point : Point} {char : Char} (found : shortEscapes.lookup point = some char) :
    (point, char) ∈ shortEscapes := by
  obtain ⟨before, after, split, -⟩ := List.lookup_eq_some_iff.mp found
  rw [split]
  exact List.mem_append_right _ List.mem_cons_self

theorem plain_unit {point : Point} (plain : shortEscapes.lookup point = none)
    (low : 0x20 ≤ point.val) (high : point.val ≤ 0x7E) :
    UnitText point [Char.ofNat point.val] := by
  have value : (Char.ofNat point.val).toNat = point.val := toNat_ofNat (by omega)
  have same : pointOf (Char.ofNat point.val) = point := by
    rw [pointOf, value]
    exact Fin.ofNat_val_eq_self point
  have apart : ∀ entry ∈ shortEscapes, point ≠ entry.1 := by
    intro entry member equal
    have absent := List.lookup_eq_none_iff.mp plain entry member
    simp [equal] at absent
  have unit : UnitText (pointOf (Char.ofNat point.val)) [Char.ofNat point.val] := by
    apply UnitText.plain
    · intro equal
      rw [equal] at same
      exact apart (0x22, '"') (by decide) same.symm
    · intro equal
      rw [equal] at same
      exact apart (0x5C, '\\') (by decide) same.symm
    · omega
  rwa [same] at unit

theorem asciiPoint_units (point : Point) : UnitsText (unitsOf point) (asciiPoint point) := by
  have single : ∀ {text : List Char}, UnitText point text → UnitsText [point] text := by
    intro text unit
    rw [← List.append_nil text]
    exact .cons unit .nil
  unfold asciiPoint
  split
  · rename_i char found
    obtain ⟨escape, small⟩ := shortEscapes_read _ (lookup_mem found)
    rw [unitsOf, if_pos small]
    exact single (.short escape)
  · rename_i plain
    split
    · rename_i printable
      rw [unitsOf, if_pos (by omega)]
      exact single (plain_unit plain printable.1 printable.2)
    · split
      · rename_i small
        rw [unitsOf, if_pos small]
        apply single
        have unit := hexEscape_unit small
        rwa [Fin.ofNat_val_eq_self] at unit
      · rename_i large
        have bound := point.isLt
        rw [unitsOf, if_neg large, ← List.append_nil (hexEscape (lowSurrogate _))]
        exact .cons (hexEscape_unit (by unfold highSurrogate; omega))
          (.cons (hexEscape_unit (by unfold lowSurrogate; omega)) .nil)

theorem asciiText_units (points : List Point) :
    UnitsText (points.flatMap unitsOf) (points.flatMap asciiPoint) := by
  induction points with
  | nil => exact .nil
  | cons point points ih => exact (asciiPoint_units point).append ih

/-- A code point beyond the basic plane is joined from its two surrogates. -/
theorem joinPair_surrogates {point : Point} (large : ¬ point.val < 0x10000) :
    isHighSurrogate (Fin.ofNat _ (highSurrogate point.val)) = true ∧
      isLowSurrogate (Fin.ofNat _ (lowSurrogate point.val)) = true ∧
        joinPair (Fin.ofNat _ (highSurrogate point.val)) (Fin.ofNat _ (lowSurrogate point.val)) =
          point := by
  have bound := point.isLt
  have high : highSurrogate point.val % 0x110000 = highSurrogate point.val :=
    Nat.mod_eq_of_lt (by unfold highSurrogate; omega)
  have low : lowSurrogate point.val % 0x110000 = lowSurrogate point.val :=
    Nat.mod_eq_of_lt (by unfold lowSurrogate; omega)
  refine ⟨?_, ?_, ?_⟩
  · simp only [isHighSurrogate, Fin.val_ofNat, high, Bool.and_eq_true, decide_eq_true_eq]
    unfold highSurrogate
    omega
  · simp only [isLowSurrogate, Fin.val_ofNat, low, Bool.and_eq_true, decide_eq_true_eq]
    unfold lowSurrogate
    omega
  · apply Fin.ext
    simp only [joinPair, Fin.val_ofNat, high, low]
    unfold highSurrogate lowSurrogate
    omega

theorem joinPairs_cons {point : Point} {units : List Point}
    (apart : ∀ next ∈ units.head?, ¬ (isHighSurrogate point && isLowSurrogate next) = true) :
    joinPairs (point :: units) = point :: joinPairs units := by
  cases units with
  | nil => rfl
  | cons next units => rw [joinPairs, if_neg (apart next rfl)]

theorem not_low_of_high {point : Point} (high : isHighSurrogate point = true) :
    isLowSurrogate point = false := by
  simp only [isHighSurrogate, isLowSurrogate, Bool.and_eq_true, decide_eq_true_eq,
    Bool.and_eq_false_iff, decide_eq_false_iff_not] at high ⊢
  omega

/-- The units of a joined string are joined to it again. -/
theorem joinPairs_unitsOf {points : List Point} (joined : Joined points) :
    joinPairs (points.flatMap unitsOf) = points := by
  induction points with
  | nil => rfl
  | cons point points ih =>
      have rest := ih joined.tail
      by_cases small : point.val < 0x10000
      · rw [List.flatMap_cons, unitsOf, if_pos small, List.singleton_append, joinPairs_cons, rest]
        intro unit head
        cases points with
        | nil => simp at head
        | cons next points =>
            have apart := (List.isChain_cons_cons.mp joined).1
            by_cases narrow : next.val < 0x10000
            · rw [List.flatMap_cons, unitsOf, if_pos narrow] at head
              obtain rfl : next = unit := by simpa using head
              exact apart
            · obtain ⟨high, -, -⟩ := joinPair_surrogates narrow
              rw [List.flatMap_cons, unitsOf, if_neg narrow] at head
              obtain rfl : Fin.ofNat _ (highSurrogate next.val) = unit := by simpa using head
              rw [not_low_of_high high, Bool.and_false]
              simp
      · obtain ⟨high, low, same⟩ := joinPair_surrogates small
        rw [List.flatMap_cons, unitsOf, if_neg small]
        simp only [List.cons_append, List.nil_append, joinPairs, high, low, Bool.and_self, if_true,
          same, rest]

/-! ### Integers -/

theorem toDigits_head {value : Nat} (positive : 0 < value) :
    ∃ char tail, Nat.toDigits 10 value = char :: tail ∧ char ≠ '0' := by
  induction value using Nat.strongRecOn with
  | ind value ih =>
      by_cases small : value < 10
      · rw [Nat.toDigits_of_lt_base small]
        refine ⟨_, _, rfl, fun zero => ?_⟩
        rw [Nat.digitChar_eq_zero] at zero
        omega
      · obtain ⟨char, tail, digits, other⟩ := ih (value / 10) (by omega) (by omega)
        rw [Nat.toDigits_of_base_le (by decide) (by omega), digits]
        exact ⟨char, _, rfl, other⟩

theorem takeWhile_toDigits (value : Nat) :
    (Nat.toDigits 10 value).takeWhile Char.isDigit = Nat.toDigits 10 value :=
  List.takeWhile_eq_self_iff.mpr fun _ member =>
    Nat.isDigit_of_mem_toDigits (by decide) (by decide) member

theorem takeInteger_toDigits (value : Nat) :
    takeInteger (Nat.toDigits 10 value) = some (Nat.toDigits 10 value, []) := by
  by_cases zero : value = 0
  · subst zero
    rfl
  · obtain ⟨char, tail, digits, other⟩ := toDigits_head (Nat.pos_of_ne_zero zero)
    have whole := takeWhile_toDigits value
    have every : ∀ digit ∈ char :: tail, digit.isDigit = true := by
      rw [← digits]
      exact fun digit member => Nat.isDigit_of_mem_toDigits (by decide) (by decide) member
    have first := every char List.mem_cons_self
    have rest : ∀ digit ∈ tail, digit.isDigit = true :=
      fun digit member => every digit (List.mem_cons_of_mem _ member)
    rw [digits]
    unfold takeInteger
    split
    · simp_all
    · rename_i same
      obtain ⟨rfl, rfl⟩ := List.cons.inj same
      rw [if_pos first, List.takeWhile_eq_self_iff.mpr rest, List.dropWhile_eq_nil_iff.mpr rest]
    · contradiction

theorem scanNumber_intText (value : Int) :
    scanNumber (intText value) =
      some (⟨decide (value < 0), Nat.toDigits 10 value.natAbs, [], []⟩, []) := by
  have integer := takeInteger_toDigits value.natAbs
  have signed : takeSign (intText value) =
      (decide (value < 0), Nat.toDigits 10 value.natAbs) := by
    unfold intText
    split
    · rename_i negative
      simp [takeSign, negative]
    · rename_i nonnegative
      rw [List.nil_append]
      unfold takeSign
      split
      · rename_i same
        rw [same] at integer
        simp [takeInteger] at integer
      · simp [nonnegative]
  simp only [scanNumber, signed, integer]
  rfl

theorem intText_value {limit : Option Nat} {value : Int}
    (short : ∀ digits ∈ limit, (Nat.toDigits 10 value.natAbs).length ≤ digits) :
    (Number.value limit ⟨decide (value < 0), Nat.toDigits 10 value.natAbs, [], []⟩ :
      Except Fault (Value φ)) = .ok (.int value) := by
  have within : ¬ limit.any (· < (Nat.toDigits 10 value.natAbs).length) = true := by
    cases limit with
    | none => simp
    | some digits => simpa using short digits rfl
  rw [Number.value, if_pos ⟨rfl, rfl⟩, if_neg within]
  simp only [Nat.ofDigitChars_ten_toDigits, decide_eq_true_eq, Except.ok.injEq, Value.int.injEq]
  split <;> omega

/-! ### Values -/

/-- Floating-point numbers are written as numbers with a fraction or an
exponent, and read back as they were. -/
class LawfulFloats (φ : Type) [Floats φ] : Prop where
  spelled : ∀ {value : φ}, Floats.finite value = true → ∃ number,
    scanNumber (Floats.write value) = some (number, []) ∧
      ¬ (number.fraction = [] ∧ number.exponent = [])
  read_write : ∀ {value : φ}, Floats.finite value = true → Floats.read (Floats.write value) = value

/-- A value that can be written and read back: its containers are nested no
deeper than a bound. -/
inductive Clean : Nat → Value φ → Prop
  | null {depth : Nat} : Clean depth .null
  | bool {depth : Nat} (value : Bool) : Clean depth (.bool value)
  | int {depth : Nat} {value : Int}
      (short : (Nat.toDigits 10 value.natAbs).length ≤ maxDigits) : Clean depth (.int value)
  | float {depth : Nat} {value : φ} (finite : Floats.finite value = true) :
      Clean depth (.float value)
  | str {depth : Nat} {points : List Point} (joined : Joined points) : Clean depth (.str points)
  | arr {depth : Nat} {items : List (Value φ)} (room : items ≠ [] → 0 < depth)
      (values : ∀ item ∈ items, Clean (depth - 1) item) : Clean depth (.arr items)
  | obj {depth : Nat} {members : List (List Point × Value φ)}
      (room : members ≠ [] → 0 < depth) (names : (members.map Prod.fst).Nodup)
      (joined : ∀ member ∈ members, Joined member.1)
      (values : ∀ member ∈ members, Clean (depth - 1) member.2) : Clean depth (.obj members)

theorem Clean.mono {depth deeper : Nat} {value : Value φ} (clean : Clean depth value)
    (within : depth ≤ deeper) : Clean deeper value := by
  induction clean generalizing deeper with
  | null => exact .null
  | bool value => exact .bool value
  | int short => exact .int short
  | float finite => exact .float finite
  | str joined => exact .str joined
  | arr room values ih =>
      apply Clean.arr
      · intro nonempty
        have some := room nonempty
        omega
      · intro item member
        exact ih item member (by omega)
  | obj room names joined values ih =>
      apply Clean.obj _ names joined
      · intro member listed
        exact ih member listed (by omega)
      · intro nonempty
        have some := room nonempty
        omega

/-- Objects whose names differ are kept as they are, and integers of `maxDigits`
digits are read. -/
structure Hooks.Exact (hooks : Hooks φ) : Prop where
  object : ∀ members : List (List Point × Value φ), (members.map Prod.fst).Nodup →
    hooks.object members = .ok (.obj members)
  digits : ∀ digits ∈ hooks.digits, maxDigits ≤ digits

section Spelling

variable {hooks : Hooks φ} {limit : Nat}

theorem space_nil : Space [] := by simp [Space]

theorem word_ascii (text : List Char) : asciiInk.word text = text := by simp [Ink.word, asciiInk]

/-- A quoted string spells itself. -/
theorem quoted_units {points : List Point} (joined : Joined points) :
    asciiInk.quoted points = '"' :: (points.flatMap asciiPoint ++ ['"']) ∧
      UnitsText (points.flatMap unitsOf) (points.flatMap asciiPoint) ∧
        joinPairs (points.flatMap unitsOf) = points :=
  ⟨rfl, asciiText_units points, joinPairs_unitsOf joined⟩

theorem writeItems_spells {items : List (Value φ)} (nonempty : items ≠ [])
    (each : ∀ item ∈ items, Spells hooks limit (.value item) (write asciiInk item)) :
    Spells hooks limit (.elements items) (writeItems asciiInk items) := by
  induction items with
  | nil => contradiction
  | cons item items ih =>
      have first := each item List.mem_cons_self
      cases items with
      | nil => exact .lastElement space_nil first space_nil
      | cons next items =>
          have rest := ih (by simp) fun other member => each other (List.mem_cons_of_mem _ member)
          exact .element space_nil first space_nil rest

theorem writeMembers_spells {members : List (List Point × Value φ)} (nonempty : members ≠ [])
    (joined : ∀ member ∈ members, Joined member.1)
    (each : ∀ member ∈ members, Spells hooks limit (.value member.2) (write asciiInk member.2)) :
    Spells hooks limit (.members members) (writeMembers asciiInk members) := by
  induction members with
  | nil => contradiction
  | cons member members ih =>
      obtain ⟨name, item⟩ := member
      have first := each (name, item) List.mem_cons_self
      obtain ⟨text, units, same⟩ := quoted_units (joined (name, item) List.mem_cons_self)
      cases members with
      | nil =>
          have last := Spells.lastMember space_nil units space_nil space_nil first space_nil
          rw [same] at last
          rw [writeMembers, text]
          simpa [asciiInk] using last
      | cons next members =>
          have rest := ih (by simp)
            (fun other member => joined other (List.mem_cons_of_mem _ member))
            fun other member => each other (List.mem_cons_of_mem _ member)
          have more := Spells.member space_nil units space_nil space_nil first space_nil rest
          rw [same] at more
          rw [writeMembers, text]
          · simpa [asciiInk] using more
          · simp

/-- What is written in ASCII spells the value. -/
theorem Clean.spells [LawfulFloats φ] (exact : hooks.Exact) {depth : Nat} {value : Value φ}
    (clean : Clean depth value) :
    Spells hooks (depth + 1) (.value value) (write asciiInk value) := by
  induction clean with
  | null => exact .literal (by simp [literals, write, word_ascii])
  | bool value => cases value <;> exact .literal (by simp [literals, write, word_ascii])
  | @int _ value short =>
      rw [write, word_ascii]
      refine .number (scanNumber_intText value) (intText_value fun digits member => ?_)
      exact short.trans (exact.digits digits member)
  | @float _ value finite =>
      obtain ⟨number, scanned, inexact⟩ := LawfulFloats.spelled finite
      have split := scanNumber_split scanned
      rw [List.append_nil] at split
      rw [write, word_ascii]
      refine .number scanned ?_
      rw [Number.value, if_neg inexact, ← split, LawfulFloats.read_write finite]
  | @str depth points joined =>
      obtain ⟨text, units, same⟩ := quoted_units joined
      have spelled : Spells hooks (depth + 1) _ _ := .string units
      rw [same] at spelled
      exact spelled
  | @arr depth items room values ih =>
      cases items with
      | nil => exact .emptyArray space_nil
      | cons item items =>
          obtain ⟨depth, rfl⟩ := Nat.exists_eq_add_one_of_ne_zero (room (by simp)).ne'
          exact .array (writeItems_spells (by simp) ih)
  | @obj depth members room names joined values ih =>
      cases members with
      | nil => exact .emptyObject space_nil (exact.object _ names)
      | cons member members =>
          obtain ⟨depth, rfl⟩ := Nat.exists_eq_add_one_of_ne_zero (room (by simp)).ne'
          exact .object (writeMembers_spells (by simp) joined ih) (exact.object _ names)

end Spelling

end Json
