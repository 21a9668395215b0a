import AgminaRuntime.Base64
import AgminaRuntime.StrictJson
import Mathlib.Algebra.Order.Floor.Ring
import Mathlib.Data.Rat.Floor

/-!
# JSON values in Python code

How the backends look into parsed JSON: `dict.get`, `in`, the truth of a value,
and what they do with numbers beside reading and writing them.
-/

/-! ## Numbers taken at the value of their texts -/

namespace Json

/-- The exact value of a number. -/
def Number.toRat (number : Number) : Rat :=
  let digits := Nat.ofDigitChars 10 (number.digits ++ number.fraction.drop 1) 0
  let exponent : Int :=
    match number.exponent.drop 1 with
    | '-' :: rest => -(Nat.ofDigitChars 10 rest 0 : Int)
    | '+' :: rest => Nat.ofDigitChars 10 rest 0
    | rest => Nat.ofDigitChars 10 rest 0
  let scaled := (digits : Rat) * (10 : Rat) ^ (exponent - (number.fraction.length - 1 : Nat))
  if number.negative then -scaled else scaled

def Verbatim.toRat (value : Verbatim) : Rat :=
  match value.text with
  | none => 0
  | some text =>
      match scanNumber text.val with
      | some (number, _) => number.toRat
      | none => 0

/-- Round half to even. -/
def roundEven (value : Rat) : Int :=
  let below := ⌊value⌋
  let part := value - below
  if part < 1 / 2 then below
  else if 1 / 2 < part then below + 1
  else if below % 2 = 0 then below
  else below + 1

end Json

namespace AgminaRuntime

open Json (Value Floats)

/-- The floating-point arithmetic that the backends use. -/
class PyFloats (φ : Type) extends Floats φ where
  /-- `value == 0` -/
  isZero : φ → Bool
  /-- `value >= 0` -/
  nonnegative : φ → Bool
  /-- `int(round(value * 1_000_000))` of a nonnegative number; the product may
  overflow. -/
  micros : φ → Option Nat
  /-- `abs(value) > 3.4028234663852886e38` -/
  beyondSingle : φ → Bool

/-- The name of a member. -/
def field (name : String) : List Json.Point := (PyStr.ofString name).points

theorem joined_pointOf (text : List Char) : Json.Joined (text.map Json.pointOf) := by
  rw [← Json.joinPairs_literal]
  exact Json.joined_joinPairs _

theorem joined_field (name : String) : Json.Joined (field name) := joined_pointOf name.toList

theorem field_injective {first second : String} (same : field first = field second) :
    first = second := by
  have chars := PyStr.chars_ofChars first.toList
  rw [show PyStr.ofChars first.toList = PyStr.ofChars second.toList from congrArg PyStr.mk same,
    PyStr.chars_ofChars, Option.some.injEq] at chars
  exact (String.toList_inj.mp chars).symm

section

variable {φ : Type}

/-- `members.get(name)` -/
def Dict.get (members : Dict φ) (name : String) : Value φ :=
  (members.lookup (field name)).getD .null

/-- `name in members` -/
def Dict.has (members : Dict φ) (name : String) : Bool :=
  (members.lookup (field name)).isSome

/-- `set(members) == {...}` for the given names. -/
def Dict.hasExactly (members : Dict φ) (names : List String) : Bool :=
  (members.all fun member => member.1 ∈ names.map field) &&
    names.all fun name => Dict.has members name

/-- `set(members) - {...}` is empty. -/
def Dict.within (members : Dict φ) (names : List String) : Bool :=
  members.all fun member => member.1 ∈ names.map field

/-- `members[name] = value` -/
def Dict.set (members : Dict φ) (name : List Json.Point) (value : Value φ) : Dict φ :=
  if name ∈ members.map Prod.fst then
    members.map fun member => if member.1 = name then (name, value) else member
  else members ++ [(name, value)]

/-- `members.update(other)` -/
def Dict.update (members other : Dict φ) : Dict φ :=
  other.foldl (fun members member => Dict.set members member.1 member.2) members

/-- `bool(value)` -/
def truthy [PyFloats φ] : Value φ → Bool
  | .null => false
  | .bool value => value
  | .int value => value ≠ 0
  | .float value => !PyFloats.isZero value
  | .str points => points ≠ []
  | .arr items => !items.isEmpty
  | .obj members => !members.isEmpty

end

/-- `str.isspace` of one character. -/
def isSpace (point : Json.Point) : Bool :=
  (9 ≤ point.val && point.val ≤ 13) || (28 ≤ point.val && point.val ≤ 32) ||
    (0x2000 ≤ point.val && point.val ≤ 0x200A) ||
      [0x85, 0xA0, 0x1680, 0x2028, 0x2029, 0x202F, 0x205F, 0x3000].contains point.val

/-- `base64.b64decode(text, validate=True)`: `None` where it raises. -/
def b64decode (text : PyStr) : Option (List Base64.Byte) := text.chars.bind Base64.decode

/-- `float(value)` does not overflow. -/
def isFloatable (value : Int) : Bool := value.natAbs < 2 ^ 1024 - 2 ^ 970

/-- Numbers taken at the exact value of their texts. -/
instance : PyFloats Json.Verbatim where
  isZero value := value.toRat = 0
  nonnegative value := 0 ≤ value.toRat
  micros value := some (Json.roundEven (value.toRat * 1000000)).toNat
  beyondSingle value := (2 ^ 128 - 2 ^ 104 : Rat) < |value.toRat|

/-! ## What may be raised -/

section

variable {α β : Type} {allowed : PyExc → Prop}

/-- Whatever is raised is allowed. -/
def Raises (allowed : PyExc → Prop) (tried : Except PyExc α) : Prop :=
  ∀ exception, tried = .error exception → allowed exception

theorem raises_ok (value : α) : Raises allowed (.ok value) := by
  intro exception raised
  contradiction

theorem raises_error {exception : PyExc} (holds : allowed exception) :
    Raises allowed (.error exception : Except PyExc α) := by
  intro other raised
  rw [← Except.error.inj raised]
  exact holds

theorem raises_bind {first : Except PyExc α} {next : α → Except PyExc β}
    (early : Raises allowed first) (late : ∀ value, Raises allowed (next value)) :
    Raises allowed (first >>= next) := by
  cases first with
  | error exception => exact raises_error (early exception rfl)
  | ok value => exact late value

theorem raises_ite {condition : Prop} [Decidable condition] {yes no : Except PyExc α}
    (first : Raises allowed yes) (second : Raises allowed no) :
    Raises allowed (if condition then yes else no) := by
  split
  · exact first
  · exact second

end

/-! ## Setting members -/

section

variable {φ : Type}

theorem lookup_map_replace (members : Dict φ) (name key : List Json.Point) (value : Value φ) :
    (members.map fun member => if member.1 = name then (name, value) else member).lookup key =
      if key = name then (members.lookup name).map fun _ => value else members.lookup key := by
  induction members with
  | nil => simp
  | cons member members ih =>
      rw [List.map_cons, List.lookup_cons, ih, List.lookup_cons, List.lookup_cons]
      by_cases own : member.1 = name
      · by_cases same : key = name
        · simp [own, same]
        · simp [own, same, beq_false_of_ne same]
      · by_cases same : key = name
        · simp [own, same, beq_false_of_ne (Ne.symm own)]
        · simp [own, same]

theorem lookup_set (members : Dict φ) (name key : List Json.Point) (value : Value φ) :
    (Dict.set members name value).lookup key =
      if key = name then some value else members.lookup key := by
  unfold Dict.set
  split
  · rename_i listed
    rw [lookup_map_replace]
    have found : members.lookup name ≠ none := by
      rw [Ne, List.lookup_eq_none_iff]
      intro absent
      obtain ⟨member, member', same⟩ := List.mem_map.mp listed
      simpa [same] using absent member member'
    obtain ⟨old, oldEq⟩ := Option.ne_none_iff_exists'.mp found
    rw [oldEq, Option.map_some]
  · rename_i missing
    rw [List.lookup_append]
    by_cases same : key = name
    · subst same
      rw [List.lookup_eq_none_iff.mpr]
      · simp
      · intro member listed
        simpa using fun equal => missing (List.mem_map.mpr ⟨member, listed, equal.symm⟩)
    · simp [same, List.lookup_cons, beq_false_of_ne same]

/-- A member that is not updated stays. -/
theorem lookup_update {members other : Dict φ} {key : List Json.Point}
    (absent : key ∉ other.map Prod.fst) :
    (Dict.update members other).lookup key = members.lookup key := by
  unfold Dict.update
  induction other generalizing members with
  | nil => rfl
  | cons member other ih =>
      rw [List.map_cons, List.mem_cons, not_or] at absent
      rw [List.foldl_cons, ih absent.2, lookup_set, if_neg absent.1]

theorem notMem_of_has {members : Dict φ} {name : String} (absent : Dict.has members name = false) :
    field name ∉ members.map Prod.fst := by
  intro listed
  obtain ⟨member, found, same⟩ := List.mem_map.mp listed
  unfold Dict.has at absent
  rw [Option.isSome_eq_false_iff, Option.isNone_iff_eq_none, List.lookup_eq_none_iff] at absent
  simpa [same] using absent member found

theorem within_of_hasExactly {members : Dict φ} {names : List String}
    (exactly : Dict.hasExactly members names = true) :
    ∀ name ∈ members.map Prod.fst, name ∈ names.map field := by
  rw [Dict.hasExactly, Bool.and_eq_true, List.all_eq_true] at exactly
  intro name listed
  obtain ⟨member, found, rfl⟩ := List.mem_map.mp listed
  simpa using exactly.1 member found

theorem within_iff {members : Dict φ} {names : List String} :
    Dict.within members names = true ↔
      ∀ name ∈ members.map Prod.fst, name ∈ names.map field := by
  simp [Dict.within]

end

end AgminaRuntime
