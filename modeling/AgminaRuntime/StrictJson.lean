import AgminaRuntime.Backend
import AgminaRuntime.JsonRoundTrip

/-!
# Strict JSON and the canonical form

`strict_json` bounds the bytes of a text, refuses repeated names, nonfinite
numbers and deep nesting, and returns an object.  `canonical` writes a value
compactly, in ASCII and with sorted names.  Both belong to the contracts: the
payload of a job and of a prediction passes through the first and is kept as
the second.
-/

namespace AgminaRuntime

open Json (Value Floats LawfulFloats Hooks Clean)

namespace PyStr

/-- The Python string with the given characters. -/
def ofChars (text : List Char) : PyStr := ⟨text.map Json.pointOf⟩

/-- The characters of a string without surrogates: `str.encode` raises on any
other. -/
def chars (text : PyStr) : Option (List Char) :=
  if text.points.any isSurrogate then none
  else some (text.points.map fun point => Char.ofNat point.val)

theorem ofString_eq (text : String) : ofString text = ofChars text.toList := rfl

theorem isSurrogate_pointOf (char : Char) : isSurrogate (Json.pointOf char) = false := by
  have bound := char.valid
  have value : char.toNat = char.val.toNat := rfl
  have small : char.toNat < 0x110000 := by
    rcases bound with low | high
    · have : char.val.toNat < 0xD800 := low
      omega
    · exact high.2
  simp only [isSurrogate, isHighSurrogate, isLowSurrogate, Json.pointOf, Fin.val_ofNat,
    Nat.mod_eq_of_lt small, Bool.or_eq_false_iff, Bool.and_eq_false_iff, decide_eq_false_iff_not]
  rcases bound with low | high
  · have : char.val.toNat < 0xD800 := low
    omega
  · have : 0xDFFF < char.val.toNat := high.1
    omega

theorem ofNat_pointOf (char : Char) : Char.ofNat (Json.pointOf char).val = char := by
  have bound := char.valid
  have value : char.toNat = char.val.toNat := rfl
  have small : char.toNat < 0x110000 := by
    rcases bound with low | high
    · have : char.val.toNat < 0xD800 := low
      omega
    · exact high.2
  rw [Json.pointOf, Fin.val_ofNat, Nat.mod_eq_of_lt small, Char.ofNat_toNat]

theorem chars_ofChars (text : List Char) : (ofChars text).chars = some text := by
  have clean : (ofChars text).points.any isSurrogate = false := by
    simp only [ofChars, List.any_map, List.any_eq_false]
    intro char _
    simp [isSurrogate_pointOf]
  rw [chars, if_neg (by simp [clean]), ofChars, List.map_map]
  congr 1
  conv_rhs => rw [← List.map_id text]
  exact List.map_congr_left fun char _ => ofNat_pointOf char

end PyStr

/-- `len(text.encode())`. -/
def encodedSize (text : List Char) : Nat := (text.map Char.utf8Size).sum

theorem encodedSize_ascii {text : List Char} (ascii : Json.Ascii text) :
    encodedSize text = text.length := by
  induction text with
  | nil => rfl
  | cons char text ih =>
      have first : char.utf8Size = 1 := by
        rw [Char.utf8Size_eq_one_iff]
        have small := ascii char List.mem_cons_self
        have value : char.val.toNat = char.toNat := rfl
        rw [UInt32.le_iff_toNat_le, value]
        show char.toNat ≤ 127
        omega
      have rest := ih fun other member => ascii other (List.mem_cons_of_mem _ member)
      rw [encodedSize, List.map_cons, List.sum_cons, first, List.length_cons, ← rest, encodedSize]
      omega

/-- `sys.getrecursionlimit()`. -/
def recursionLimit : Nat := 1000

/-- The default of `max_bytes`. -/
def maxJsonBytes : Nat := 8000000

/-- The deepest level that `check` lets pass. -/
def maxNesting : Nat := 32

/-- A Python `dict` that was read from JSON. -/
abbrev Dict (φ : Type) := List (List Json.Point × Value φ)

section

variable {φ : Type}

/-- `pairs` and `constant`, the two hooks of `strict_json`. -/
def strictHooks : Hooks φ where
  object members :=
    if (members.map Prod.fst).Nodup then .ok (.obj members)
    else .error (.value "Duplicate JSON key")
  constant _ := .error (.value "Nonfinite JSON number")
  digits := some Json.maxDigits

theorem strictHooks_tidy : (strictHooks : Hooks φ).Tidy where
  object := by
    intro members value read
    simp only [strictHooks] at read
    split at read
    · rename_i names
      exact ⟨members, (Except.ok.inj read).symm, names, fun _ => id⟩
    · contradiction
  constant := by simp [strictHooks]
  digits := rfl

theorem strictHooks_exact : (strictHooks : Hooks φ).Exact where
  object := by
    intro members names
    simp only [strictHooks, if_pos names]
  digits := by simp [strictHooks]

variable [Floats φ]

mutual

/-- `check(obj, depth)` -/
def check : Value φ → Nat → Except PyExc Unit
  | .float value, depth =>
      if maxNesting < depth then .error (.valueError "JSON nesting exceeds limit")
      else if Floats.finite value then .ok () else .error (.valueError "Nonfinite JSON number")
  | .arr items, depth =>
      if maxNesting < depth then .error (.valueError "JSON nesting exceeds limit")
      else checkItems items (depth + 1)
  | .obj members, depth =>
      if maxNesting < depth then .error (.valueError "JSON nesting exceeds limit")
      else checkMembers members (depth + 1)
  | _, depth =>
      if maxNesting < depth then .error (.valueError "JSON nesting exceeds limit") else .ok ()

def checkItems : List (Value φ) → Nat → Except PyExc Unit
  | [], _ => .ok ()
  | item :: items, depth => do
      check item depth
      checkItems items depth

def checkMembers : Dict φ → Nat → Except PyExc Unit
  | [], _ => .ok ()
  | (_, item) :: members, depth => do
      check item depth
      checkMembers members depth

end

/-- How `strict_json` reports what the reader raises: only a `JSONDecodeError`
and a `RecursionError` are rewritten. -/
def strictFault : Json.Fault → PyExc
  | .decode _ => .valueError "Malformed JSON"
  | .recursion => .valueError "Malformed JSON"
  | .value text => .valueError text

/-- `strict_json` behind its byte bound. -/
def strictObject (text : List Char) : Except PyExc (Dict φ) :=
  match Json.loads strictHooks recursionLimit text with
  | .error fault => .error (strictFault fault)
  | .ok (.obj members) => do
      check (.obj members) 0
      pure members
  | .ok _ => .error (.valueError "JSON must be an object")

/-- `strict_json(value, max_bytes=maxBytes)` -/
def strictJson (value : PyStr) (maxBytes : Nat) : Except PyExc (Dict φ) :=
  match value.chars with
  | none => .error .unicodeEncodeError
  | some text =>
      if maxBytes < encodedSize text then .error (.valueError "JSON object exceeds byte bound")
      else strictObject text

mutual

/-- What `json.dumps` cannot write: a number that is not finite, and an integer
with too many digits. -/
def dumpFault : Value φ → Option String
  | .int value =>
      if Json.maxDigits < (Nat.toDigits 10 value.natAbs).length then
        some "Exceeds the limit (4300 digits) for integer string conversion"
      else none
  | .float value =>
      if Floats.finite value then none
      else some "Out of range float values are not JSON compliant"
  | .arr items => dumpFaultItems items
  | .obj members => dumpFaultMembers members
  | _ => none

def dumpFaultItems : List (Value φ) → Option String
  | [] => none
  | item :: items => (dumpFault item).or (dumpFaultItems items)

def dumpFaultMembers : Dict φ → Option String
  | [] => none
  | (_, item) :: members => (dumpFault item).or (dumpFaultMembers members)

end

/-- `canonical(value)` -/
def canonical (value : Value φ) : Except PyExc (List Char) :=
  match dumpFault (Json.sortKeys value) with
  | some text => .error (.valueError text)
  | none => .ok (Json.write Json.asciiInk (Json.sortKeys value))

/-! ## What is accepted -/

theorem bind_ok_iff {ε α β : Type} {first : Except ε α} {next : α → Except ε β} {value : β} :
    (first >>= next) = .ok value ↔ ∃ middle, first = .ok middle ∧ next middle = .ok value := by
  cases first with
  | error fault => simp [bind, Except.bind]
  | ok middle => simp [bind, Except.bind]

theorem checkItems_ok {items : List (Value φ)} {depth : Nat} :
    checkItems items depth = .ok () ↔ ∀ item ∈ items, check item depth = .ok () := by
  induction items with
  | nil => simp [checkItems]
  | cons item items ih =>
      rw [checkItems, bind_ok_iff, List.forall_mem_cons, ← ih]
      exact ⟨fun ⟨_, first, rest⟩ => ⟨first, rest⟩, fun ⟨first, rest⟩ => ⟨(), first, rest⟩⟩

theorem checkMembers_ok {members : Dict φ} {depth : Nat} :
    checkMembers members depth = .ok () ↔
      ∀ member ∈ members, check member.2 depth = .ok () := by
  induction members with
  | nil => simp [checkMembers]
  | cons member members ih =>
      rw [checkMembers, bind_ok_iff, List.forall_mem_cons, ← ih]
      exact ⟨fun ⟨_, first, rest⟩ => ⟨first, rest⟩, fun ⟨first, rest⟩ => ⟨(), first, rest⟩⟩

/-- Whatever passes the check is within the nesting limit. -/
theorem depth_of_check {value : Value φ} {depth : Nat} (passes : check value depth = .ok ()) :
    depth ≤ maxNesting := by
  by_contra deep
  rw [not_le] at deep
  cases value <;> simp [check, deep] at passes

/-- A tidy value that passes the check can be written and read back. -/
theorem clean_of_check {value : Value φ} (tidy : Json.Tidy value) {depth : Nat}
    (passes : check value depth = .ok ()) : Clean (maxNesting - depth) value := by
  induction tidy generalizing depth with
  | null => exact .null
  | bool value => exact .bool value
  | int short => exact .int short
  | float value =>
      apply Clean.float
      have within := depth_of_check passes
      simp only [check, if_neg (not_lt.mpr within)] at passes
      split at passes
      · assumption
      · contradiction
  | str joined => exact .str joined
  | arr values ih =>
      have within := depth_of_check passes
      simp only [check, if_neg (not_lt.mpr within), checkItems_ok] at passes
      apply Clean.arr
      · intro nonempty
        obtain ⟨item, member⟩ := List.exists_mem_of_ne_nil _ nonempty
        have inner := depth_of_check (passes item member)
        omega
      · intro item member
        have inner := ih item member (passes item member)
        rwa [Nat.sub_add_eq] at inner
  | obj names joined values ih =>
      have within := depth_of_check passes
      simp only [check, if_neg (not_lt.mpr within), checkMembers_ok] at passes
      apply Clean.obj
      · intro nonempty
        obtain ⟨pair, member⟩ := List.exists_mem_of_ne_nil _ nonempty
        have inner := depth_of_check (passes pair member)
        omega
      · exact names
      · exact joined
      · intro pair member
        have inner := ih pair member (passes pair member)
        rwa [Nat.sub_add_eq] at inner

theorem check_of_clean {value : Value φ} {budget depth : Nat} (clean : Clean budget value)
    (within : budget + depth ≤ maxNesting) : check value depth = .ok () := by
  induction clean generalizing depth with
  | null => simp only [check, if_neg (not_lt.mpr (show depth ≤ maxNesting by omega))]
  | bool value => simp only [check, if_neg (not_lt.mpr (show depth ≤ maxNesting by omega))]
  | int short => simp only [check, if_neg (not_lt.mpr (show depth ≤ maxNesting by omega))]
  | float finite =>
      simp only [check, if_neg (not_lt.mpr (show depth ≤ maxNesting by omega)), if_pos finite]
  | str joined => simp only [check, if_neg (not_lt.mpr (show depth ≤ maxNesting by omega))]
  | @arr budget items room values ih =>
      simp only [check, if_neg (not_lt.mpr (show depth ≤ maxNesting by omega)), checkItems_ok]
      intro item member
      have some := room (List.ne_nil_of_mem member)
      exact ih item member (by omega)
  | @obj budget members room names joined values ih =>
      simp only [check, if_neg (not_lt.mpr (show depth ≤ maxNesting by omega)), checkMembers_ok]
      intro pair member
      have some := room (List.ne_nil_of_mem member)
      exact ih pair member (by omega)

theorem strictObject_ok {text : List Char} {members : Dict φ} :
    strictObject text = .ok members ↔
      Json.loads strictHooks recursionLimit text = .ok (.obj members) ∧
        check (.obj members) 0 = .ok () := by
  unfold strictObject
  split
  · rename_i fault read
    simp [read]
  · rename_i found read
    rw [bind_ok_iff]
    constructor
    · rintro ⟨_, passes, same⟩
      obtain rfl : found = members := Except.ok.inj same
      exact ⟨read, passes⟩
    · rintro ⟨same, passes⟩
      obtain rfl : found = members := by
        rw [read] at same
        simpa using same
      exact ⟨(), passes, rfl⟩
  · rename_i value other read
    constructor
    · intro absurd
      contradiction
    · rintro ⟨same, -⟩
      rw [read] at same
      exact absurd (Except.ok.inj same) (other members)

theorem strictJson_ok {value : PyStr} {maxBytes : Nat} {members : Dict φ} :
    strictJson value maxBytes = .ok members ↔
      ∃ text, value.chars = some text ∧ encodedSize text ≤ maxBytes ∧
        strictObject text = .ok members := by
  unfold strictJson
  split
  · rename_i fails
    simp [fails]
  · rename_i text encoded
    split
    · rename_i large
      simp only [reduceCtorEq, false_iff]
      rintro ⟨other, same, within, -⟩
      obtain rfl : text = other := by simpa [encoded] using same
      omega
    · rename_i within
      simp [encoded, not_lt.mp within]

/-- An accepted object can be written and read back. -/
theorem clean_of_strictObject {text : List Char} {members : Dict φ}
    (read : strictObject text = .ok members) : Clean maxNesting (.obj members) := by
  obtain ⟨loaded, passes⟩ := strictObject_ok.mp read
  obtain ⟨before, part, after, -, -, -, spelled⟩ := Json.loads_iff.mp loaded
  exact clean_of_check (spelled.tidy strictHooks_tidy) passes

/-- What is written in ASCII is accepted as what it was. -/
theorem strictObject_write [LawfulFloats φ] {members : Dict φ}
    (clean : Clean maxNesting (.obj members)) :
    strictObject (Json.write Json.asciiInk (.obj members)) = .ok members := by
  rw [strictObject_ok]
  constructor
  · have spelled := (clean.spells strictHooks_exact).mono (show maxNesting + 1 ≤ recursionLimit by decide)
    simpa using spelled.loads Json.space_nil Json.space_nil
  · exact check_of_clean clean (by decide)

/-! ## The canonical form -/

theorem dumpFaultItems_none {items : List (Value φ)} :
    dumpFaultItems items = none ↔ ∀ item ∈ items, dumpFault item = none := by
  induction items with
  | nil => simp [dumpFaultItems]
  | cons item items ih => simp [dumpFaultItems, Option.or_eq_none_iff, ih]

theorem dumpFaultMembers_none {members : Dict φ} :
    dumpFaultMembers members = none ↔ ∀ member ∈ members, dumpFault member.2 = none := by
  induction members with
  | nil => simp [dumpFaultMembers]
  | cons member members ih => simp [dumpFaultMembers, Option.or_eq_none_iff, ih]

theorem dumpFault_of_clean {value : Value φ} {budget : Nat} (clean : Clean budget value) :
    dumpFault value = none := by
  induction clean with
  | null => simp [dumpFault]
  | bool value => simp [dumpFault]
  | int short => simp only [dumpFault, if_neg (not_lt.mpr short)]
  | float finite => simp only [dumpFault, if_pos finite]
  | str joined => simp [dumpFault]
  | arr room values ih => rwa [dumpFault, dumpFaultItems_none]
  | obj room names joined values ih => rwa [dumpFault, dumpFaultMembers_none]

theorem canonical_of_clean {value : Value φ} {budget : Nat} (clean : Clean budget value) :
    canonical value = .ok (Json.write Json.asciiInk (Json.sortKeys value)) := by
  rw [canonical, dumpFault_of_clean clean.sortKeys]

end

end AgminaRuntime
