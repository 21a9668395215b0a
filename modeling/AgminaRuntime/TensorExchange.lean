import AgminaRuntime.HttpExchange

/-!
# What a tensor server is sent and what is made of its answer

`tensor_check` says what a tensor is: a name, up to eight dimensions and as many
entries of the declared type as they ask for.  Only such tensors are sent, under
names that differ, and only such tensors are delivered.  The prediction holds
their canonical form, in which members stand in the order of their names; who
reads it again finds well-formed tensors under the same names.
-/

namespace AgminaRuntime

open Json (Value Clean LawfulFloats)

section

variable {φ : Type}

/-! ## Shapes and types -/

theorem lookup_of_mem {members : Dict φ} {name : List Json.Point} {value : Value φ}
    (names : (members.map Prod.fst).Nodup) (member : (name, value) ∈ members) :
    members.lookup name = some value := by
  induction members with
  | nil => simp at member
  | cons first rest ih =>
      rw [List.map_cons, List.nodup_cons] at names
      rw [List.lookup_cons]
      rcases List.mem_cons.mp member with rfl | later
      · simp
      · have differs : name ≠ first.1 := by
          rintro rfl
          exact names.1 (List.mem_map.mpr ⟨_, later, rfl⟩)
        rw [beq_false_of_ne differs]
        exact ih names.2 later

theorem lookup_none {members : Dict φ} {name : List Json.Point} :
    members.lookup name = none ↔ name ∉ members.map Prod.fst := by
  rw [List.lookup_eq_none_iff, List.mem_map]
  constructor
  · rintro absent ⟨member, listed, rfl⟩
    simpa using absent member listed
  · intro absent member listed
    rw [bne_iff_ne]
    rintro rfl
    exact absent ⟨member, listed, rfl⟩

/-- The members of an object in the order of their names. -/
def sortedMembers (members : Dict φ) : Dict φ :=
  Json.inOrder (members.map fun member => (member.1, Json.sortKeys member.2))

theorem lookup_sortedMembers {members : Dict φ} (names : (members.map Prod.fst).Nodup)
    (name : List Json.Point) :
    (sortedMembers members).lookup name = (members.lookup name).map Json.sortKeys := by
  have same := Json.inOrder_perm (members.map fun member => (member.1, Json.sortKeys member.2))
  have sameNames : ((sortedMembers members).map Prod.fst).Perm (members.map Prod.fst) := by
    have mapped := same.map Prod.fst
    rwa [List.map_map] at mapped
  cases found : members.lookup name with
  | none =>
      rw [Option.map_none, lookup_none, sameNames.mem_iff]
      exact lookup_none.mp found
  | some value =>
      apply lookup_of_mem (sameNames.nodup_iff.mpr names)
      apply same.mem_iff.mpr
      exact List.mem_map.mpr ⟨_, mem_of_lookup found, rfl⟩

theorem get_sortedMembers {members : Dict φ} (names : (members.map Prod.fst).Nodup)
    (name : String) :
    Dict.get (sortedMembers members) name = Json.sortKeys (Dict.get members name) := by
  rw [Dict.get, Dict.get, lookup_sortedMembers names]
  cases members.lookup (field name) <;> rfl

theorem hasExactly_sortedMembers {members : Dict φ} (names : (members.map Prod.fst).Nodup)
    {listed : List String} (exactly : Dict.hasExactly members listed = true) :
    Dict.hasExactly (sortedMembers members) listed = true := by
  rw [Dict.hasExactly, Bool.and_eq_true, List.all_eq_true, List.all_eq_true] at exactly ⊢
  constructor
  · intro member found
    obtain ⟨origin, known, rfl⟩ := List.mem_map.mp ((Json.inOrder_perm _).mem_iff.mp found)
    exact exactly.1 origin known
  · intro name wanted
    have present := exactly.2 name wanted
    rw [Dict.has] at present ⊢
    rw [lookup_sortedMembers names, Option.isSome_map]
    exact present

end

section

variable {φ : Type} [PyFloats φ]

/-! ## Tensors -/

/-- The value is an entry of a tensor of the type. -/
def TensorType.Holds (dtype : TensorType) (value : Value φ) : Prop :=
  match dtype with
  | .bool => ∃ bit, value = .bool bit
  | .fp32 =>
      (∃ number, value = .int number ∧ isFloatable number = true ∧
        beyondSingleInt number = false) ∨
      ∃ number, value = .float number ∧ Json.Floats.finite number = true ∧
        PyFloats.beyondSingle number = false
  | .fp64 =>
      (∃ number, value = .int number ∧ isFloatable number = true) ∨
      ∃ number, value = .float number ∧ Json.Floats.finite number = true
  | .uint8 => ∃ number : Int, value = .int number ∧ 0 ≤ number ∧ number ≤ 255
  | .int32 => ∃ number : Int, value = .int number ∧ -2 ^ 31 ≤ number ∧ number ≤ 2 ^ 31 - 1
  | .int64 => ∃ number : Int, value = .int number ∧ -2 ^ 63 ≤ number ∧ number ≤ 2 ^ 63 - 1

/-- The members of a tensor: a name, the sizes of its dimensions, a type and one
entry of that type for each place. -/
structure TensorParts (members : Dict φ) (title : List Json.Point) (sizes : List Nat)
    (dtype : TensorType) (values : List (Value φ)) : Prop where
  fields : Dict.hasExactly members ["name", "shape", "datatype", "data"] = true
  name : Dict.get members "name" = .str title
  named : title ≠ []
  shape : Dict.get members "shape" = .arr (sizes.map fun (size : Nat) => .int size)
  rank : 1 ≤ sizes.length ∧ sizes.length ≤ 8
  positive : ∀ size ∈ sizes, 1 ≤ size
  datatype : Dict.get members "datatype" = .str (field dtype.text)
  data : Dict.get members "data" = .arr values
  filled : values.length = sizes.prod
  bounded : sizes.prod ≤ maxTensorSize
  entries : ∀ value ∈ values, dtype.Holds value

def WellFormedTensor (tensor : Value φ) : Prop :=
  ∃ members title sizes dtype values, tensor = .obj members ∧
    TensorParts members title sizes dtype values

/-- An entry of a tensor has no members to sort. -/
theorem TensorType.Holds.sortKeys {dtype : TensorType} {value : Value φ}
    (holds : dtype.Holds value) : Json.sortKeys value = value := by
  cases value with
  | arr items => cases dtype <;> simp [Holds] at holds
  | obj members => cases dtype <;> simp [Holds] at holds
  | _ => rfl

/-- The canonical form of a well-formed tensor is well-formed. -/
theorem WellFormedTensor.sortKeys {tensor : Value φ} (wellFormed : WellFormedTensor tensor)
    {depth : Nat} (clean : Clean depth tensor) : WellFormedTensor (Json.sortKeys tensor) := by
  obtain ⟨members, title, sizes, dtype, values, rfl, parts⟩ := wellFormed
  have names : (members.map Prod.fst).Nodup := by
    cases clean
    assumption
  refine ⟨sortedMembers members, title, sizes, dtype, values, Json.sortKeys_obj members, ?_⟩
  refine { parts with
    fields := hasExactly_sortedMembers names parts.fields
    name := ?_
    shape := ?_
    datatype := ?_
    data := ?_ }
  · rw [get_sortedMembers names, parts.name]
    rfl
  · rw [get_sortedMembers names, parts.shape, Json.sortKeys_arr, List.map_map]
    rfl
  · rw [get_sortedMembers names, parts.datatype]
    rfl
  · rw [get_sortedMembers names, parts.data, Json.sortKeys_arr]
    have same : values.map Json.sortKeys = values.map fun value => value :=
      List.map_congr_left fun value member => (parts.entries value member).sortKeys
    rw [same, List.map_id']

/-- The title of a tensor. -/
def tensorTitle (tensor : Value φ) : List Json.Point :=
  match memberOf tensor "name" with
  | .str points => points
  | _ => []

theorem tensorTitle_sortKeys {tensor : Value φ} (wellFormed : WellFormedTensor tensor)
    {depth : Nat} (clean : Clean depth tensor) :
    tensorTitle (Json.sortKeys tensor) = tensorTitle tensor := by
  obtain ⟨members, title, sizes, dtype, values, rfl, parts⟩ := wellFormed
  have names : (members.map Prod.fst).Nodup := by
    cases clean
    assumption
  have sorted : Dict.get (sortedMembers members) "name" = .str title := by
    rw [get_sortedMembers names, parts.name]
    rfl
  rw [Json.sortKeys_obj]
  simp only [tensorTitle, memberOf, parts.name]
  rw [show Dict.get (Json.inOrder _) "name" = .str title from sorted]

/-- Well-formed tensors whose titles differ. -/
structure WellFormedTensors (tensors : List (Value φ)) : Prop where
  nonempty : tensors ≠ []
  each : ∀ tensor ∈ tensors, WellFormedTensor tensor
  distinct : (tensors.map tensorTitle).Nodup

theorem WellFormedTensors.sortKeys {tensors : List (Value φ)}
    (wellFormed : WellFormedTensors tensors) {depth : Nat}
    (clean : ∀ tensor ∈ tensors, Clean depth tensor) :
    WellFormedTensors (tensors.map Json.sortKeys) where
  nonempty := by simpa using wellFormed.nonempty
  each := by
    intro tensor member
    obtain ⟨origin, known, rfl⟩ := List.mem_map.mp member
    exact (wellFormed.each origin known).sortKeys (clean origin known)
  distinct := by
    have same : (tensors.map Json.sortKeys).map tensorTitle = tensors.map tensorTitle := by
      rw [List.map_map]
      apply List.map_congr_left
      exact fun tensor member =>
        tensorTitle_sortKeys (wellFormed.each tensor member) (clean tensor member)
    rw [same]
    exact wellFormed.distinct

end

section

variable {φ : Type} [ComparedFloats φ] (endpoint : HttpEndpoint φ)

/-! ## Replies -/

section

variable (sha256 : List Base64.Byte → String) {ω : Type} (encode : Encoder φ ω)
  (environment : HttpEnvironment) (job : Job)

end

end

namespace Sample

def tensor (name : String) : Value Json.Verbatim :=
  .obj [(field "data", .arr [.int 7, .int 9]), (field "datatype", .str (field "INT32")),
    (field "name", .str (field name)), (field "shape", .arr [.int 1, .int 2])]

end Sample

end AgminaRuntime
