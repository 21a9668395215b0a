import AgminaRuntime.PythonValues

/-!
# `json.loads` and `json.dumps`

Without hooks the reader keeps the last of several members with one name, takes
the words for numbers that are not finite, and limits the digits of an integer.
The writer escapes whatever is not ASCII.
-/

namespace AgminaRuntime

open Json (Value Floats LawfulFloats Hooks Clean)

section

variable {φ : Type}

theorem keys_set (members : Dict φ) (name : List Json.Point) (value : Value φ) :
    (Dict.set members name value).map Prod.fst =
      if name ∈ members.map Prod.fst then members.map Prod.fst
      else members.map Prod.fst ++ [name] := by
  unfold Dict.set
  split
  · rw [List.map_map]
    apply List.map_congr_left
    intro member _
    dsimp only [Function.comp_apply]
    split
    · rename_i own
      exact own.symm
    · rfl
  · simp

theorem nodup_set {members : Dict φ} {name : List Json.Point} {value : Value φ}
    (distinct : (members.map Prod.fst).Nodup) :
    ((Dict.set members name value).map Prod.fst).Nodup := by
  rw [keys_set]
  split
  · exact distinct
  · rename_i absent
    exact distinct.append (List.nodup_singleton name) (by simpa using absent)

theorem mem_set {members : Dict φ} {name : List Json.Point} {value : Value φ}
    {member : List Json.Point × Value φ} (listed : member ∈ Dict.set members name value) :
    member ∈ members ∨ member = (name, value) := by
  unfold Dict.set at listed
  split at listed
  · obtain ⟨old, oldListed, same⟩ := List.mem_map.mp listed
    split at same
    · exact .inr same.symm
    · exact .inl (same ▸ oldListed)
  · simpa using listed

/-- Updating with members of other names appends them. -/
theorem update_append {members other : Dict φ}
    (distinct : ((members ++ other).map Prod.fst).Nodup) :
    Dict.update members other = members ++ other := by
  unfold Dict.update
  induction other generalizing members with
  | nil => simp
  | cons member other ih =>
      have absent : member.1 ∉ members.map Prod.fst := by
        intro listed
        rw [List.map_append, List.nodup_append] at distinct
        exact distinct.2.2 _ listed _ (List.mem_map_of_mem List.mem_cons_self) rfl
      rw [List.foldl_cons, Dict.set, if_neg absent, ih]
      · simp
      · simpa using distinct

theorem nodup_update {members other : Dict φ} (distinct : (members.map Prod.fst).Nodup) :
    ((Dict.update members other).map Prod.fst).Nodup := by
  unfold Dict.update
  induction other generalizing members with
  | nil => exact distinct
  | cons member other ih => exact ih (nodup_set distinct)

theorem mem_update {members other : Dict φ} {member : List Json.Point × Value φ}
    (listed : member ∈ Dict.update members other) : member ∈ members ∨ member ∈ other := by
  unfold Dict.update at listed
  induction other generalizing members with
  | nil => exact .inl listed
  | cons first other ih =>
      rcases ih listed with early | late
      · rcases mem_set early with old | same
        · exact .inl old
        · exact .inr (same ▸ List.mem_cons_self)
      · exact .inr (List.mem_cons_of_mem _ late)

mutual

/-- The value has an integer with more digits than `str` writes. -/
def hasLongInt : Value φ → Bool
  | .int value => Json.maxDigits < (Nat.toDigits 10 value.natAbs).length
  | .arr items => hasLongIntItems items
  | .obj members => hasLongIntMembers members
  | _ => false

def hasLongIntItems : List (Value φ) → Bool
  | [] => false
  | item :: items => hasLongInt item || hasLongIntItems items

def hasLongIntMembers : Dict φ → Bool
  | [] => false
  | (_, item) :: members => hasLongInt item || hasLongIntMembers members

end

theorem hasLongIntItems_eq {items : List (Value φ)} :
    hasLongIntItems items = items.any hasLongInt := by
  induction items with
  | nil => rfl
  | cons item items ih => rw [hasLongIntItems, ih, List.any_cons]

theorem hasLongIntMembers_eq {members : Dict φ} :
    hasLongIntMembers members = members.any fun member => hasLongInt member.2 := by
  induction members with
  | nil => rfl
  | cons member members ih => rw [hasLongIntMembers, ih, List.any_cons]

theorem hasLongInt_of_tidy {value : Value φ} (tidy : Json.Tidy value) :
    hasLongInt value = false := by
  induction tidy with
  | null => rfl
  | bool value => rfl
  | int short => simpa [hasLongInt] using short
  | float value => rfl
  | str joined => rfl
  | arr values ih => simpa [hasLongInt, hasLongIntItems_eq] using ih
  | obj names joined values ih =>
      rw [hasLongInt, hasLongIntMembers_eq, List.any_eq_false]
      intro member listed
      simp [ih member listed]

variable [Floats φ]

/-- The reader without hooks. -/
def defaultHooks : Hooks φ where
  object members := .ok (.obj (Dict.update [] members))
  constant constant := .ok (.float (Floats.constant constant))
  digits := some Json.maxDigits

/-- The exception behind a fault of the reader; a `JSONDecodeError` is a
`ValueError`. -/
def jsonFault : Json.Fault → PyExc
  | .decode _ => .valueError "JSONDecodeError"
  | .recursion => .other "RecursionError"
  | .value text => .valueError text

/-- `json.loads(text)` -/
def jsonLoads (text : List Char) : Except PyExc (Value φ) :=
  (Json.loads defaultHooks recursionLimit text).mapError jsonFault

/-- `json.dumps(value, separators=(",", ":"))` -/
def jsonDumps (value : Value φ) : Except PyExc (List Char) :=
  if hasLongInt value then
    .error (.valueError "Exceeds the limit (4300 digits) for integer string conversion")
  else .ok (Json.write Json.asciiInk value)

theorem defaultHooks_tidy : (defaultHooks : Hooks φ).Tidy where
  object := by
    intro members value read
    obtain rfl := Except.ok.inj read
    refine ⟨_, rfl, nodup_update List.nodup_nil, fun member listed => ?_⟩
    rcases mem_update listed with early | late
    · exact absurd early List.not_mem_nil
    · exact late
  constant := by
    intro constant value read
    exact ⟨_, (Except.ok.inj read).symm⟩
  digits := rfl

theorem defaultHooks_exact : (defaultHooks : Hooks φ).Exact where
  object := by
    intro members names
    simp only [defaultHooks]
    rw [update_append (by simpa using names), List.nil_append]
  digits := by simp [defaultHooks]

theorem jsonLoads_tidy {text : List Char} {value : Value φ} (read : jsonLoads text = .ok value) :
    Json.Tidy value := by
  cases loaded : Json.loads (defaultHooks : Hooks φ) recursionLimit text with
  | error fault => simp [jsonLoads, loaded, Except.mapError] at read
  | ok found =>
      obtain rfl : found = value := by simpa [jsonLoads, loaded, Except.mapError] using read
      obtain ⟨before, part, after, -, -, -, spelled⟩ := Json.loads_iff.mp loaded
      exact spelled.tidy defaultHooks_tidy

/-- What is written is read back. -/
theorem jsonLoads_write [LawfulFloats φ] {value : Value φ} {depth : Nat}
    (clean : Clean depth value) (shallow : depth + 1 ≤ recursionLimit) :
    jsonLoads (Json.write Json.asciiInk value) = .ok value := by
  have spelled := (clean.spells defaultHooks_exact).mono shallow
  have loaded := spelled.loads Json.space_nil Json.space_nil
  rw [List.nil_append, List.append_nil] at loaded
  rw [jsonLoads, loaded, Except.mapError]

end

end AgminaRuntime
