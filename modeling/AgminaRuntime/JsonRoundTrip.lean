import AgminaRuntime.JsonWriter

/-!
# Reading back what was written

A strict reader, which refuses repeated names and the words that are not JSON,
returns tidy values only.  A tidy value that is nested within a bound is written
in ASCII so that the reader returns it again; sorting the names of its objects
keeps it so, keeps the size of what is written, and does nothing the second
time.
-/

namespace Json

variable {φ : Type}

/-! ## Names in order -/

theorem sortItems_eq (items : List (Value φ)) : sortItems items = items.map sortKeys := by
  induction items with
  | nil => rfl
  | cons item items ih => rw [sortItems, ih, List.map_cons]

theorem sortMembers_eq (members : List (List Point × Value φ)) :
    sortMembers members = members.map fun member => (member.1, sortKeys member.2) := by
  induction members with
  | nil => rfl
  | cons member members ih => rw [sortMembers, ih, List.map_cons]

/-- The members of an object in the order of their names. -/
def inOrder (members : List (List Point × Value φ)) : List (List Point × Value φ) :=
  members.insertionSort fun first second => first.1 ≤ second.1

theorem inOrder_perm (members : List (List Point × Value φ)) :
    (inOrder members).Perm members :=
  List.perm_insertionSort _ _

theorem inOrder_sorted (members : List (List Point × Value φ)) :
    (inOrder members).Pairwise fun first second => first.1 ≤ second.1 := by
  have total : Std.Total fun first second : List Point × Value φ => first.1 ≤ second.1 :=
    ⟨fun first second => le_total first.1 second.1⟩
  have trans : IsTrans (List Point × Value φ) fun first second => first.1 ≤ second.1 :=
    ⟨fun _ _ _ early late => le_trans early late⟩
  exact List.pairwise_insertionSort _ _

theorem sortKeys_arr (items : List (Value φ)) :
    sortKeys (.arr items) = .arr (items.map sortKeys) := by
  rw [sortKeys, sortItems_eq]

theorem sortKeys_obj (members : List (List Point × Value φ)) :
    sortKeys (.obj members) =
      .obj (inOrder (members.map fun member => (member.1, sortKeys member.2))) := by
  rw [sortKeys, sortMembers_eq, inOrder]

/-! ## Deeper limits -/

variable [Floats φ]

/-- More levels of nesting do not change what a text spells. -/
theorem Spells.mono {hooks : Hooks φ} {limit : Nat} {phrase : Phrase φ} {text : List Char}
    (spelled : Spells hooks limit phrase text) {larger : Nat} (within : limit ≤ larger) :
    Spells hooks larger phrase text := by
  induction spelled generalizing larger with
  | literal listed => exact .literal listed
  | number scanned read => exact .number scanned read
  | constant read => exact .constant read
  | string units => exact .string units
  | emptyArray blank =>
      cases larger with
      | zero => omega
      | succ larger => exact .emptyArray blank
  | array _ ih =>
      cases larger with
      | zero => omega
      | succ larger => exact .array (ih (by omega))
  | emptyObject blank read =>
      cases larger with
      | zero => omega
      | succ larger => exact .emptyObject blank read
  | object _ read ih =>
      cases larger with
      | zero => omega
      | succ larger => exact .object (ih (by omega)) read
  | lastElement early _ late ih => exact .lastElement early (ih within) late
  | element early _ late _ ih ihRest => exact .element early (ih within) late (ihRest within)
  | lastMember early units colon gap _ late ih =>
      exact .lastMember early units colon gap (ih within) late
  | member early units colon gap _ late _ ih ihRest =>
      exact .member early units colon gap (ih within) late (ihRest within)

/-! ## What a reader returns -/

/-- A value as a reader returns it. -/
inductive Tidy : Value φ → Prop
  | null : Tidy .null
  | bool (value : Bool) : Tidy (.bool value)
  | int {value : Int} (short : (Nat.toDigits 10 value.natAbs).length ≤ maxDigits) :
      Tidy (.int value)
  | float (value : φ) : Tidy (.float value)
  | str {points : List Point} (joined : Joined points) : Tidy (.str points)
  | arr {items : List (Value φ)} (values : ∀ item ∈ items, Tidy item) : Tidy (.arr items)
  | obj {members : List (List Point × Value φ)} (names : (members.map Prod.fst).Nodup)
      (joined : ∀ member ∈ members, Joined member.1)
      (values : ∀ member ∈ members, Tidy member.2) : Tidy (.obj members)

theorem Clean.tidy {depth : Nat} {value : Value φ} (clean : Clean depth value) :
    Tidy value := by
  induction clean with
  | null => exact .null
  | bool value => exact .bool value
  | int short => exact .int short
  | float => exact .float _
  | str joined => exact .str joined
  | arr room values ih => exact .arr ih
  | obj room names joined values ih => exact .obj names joined ih

/-- An object is made of the members that were read, with no name twice; the
words beside the grammar are no containers, and integers are limited. -/
structure Hooks.Tidy (hooks : Hooks φ) : Prop where
  object : ∀ {members : List (List Point × Value φ)} {value : Value φ},
    hooks.object members = .ok value → ∃ kept, value = .obj kept ∧
      (kept.map Prod.fst).Nodup ∧ ∀ member ∈ kept, member ∈ members
  constant : ∀ {constant : Constant} {value : Value φ}, hooks.constant constant = .ok value →
    ∃ number, value = .float number
  digits : hooks.digits = some maxDigits

theorem ofDigitChars_lt {digits : List Char} (every : ∀ char ∈ digits, char.isDigit = true) :
    Nat.ofDigitChars 10 digits 0 < 10 ^ digits.length := by
  induction digits with
  | nil => simp
  | cons char digits ih =>
      have rest := ih fun other member => every other (List.mem_cons_of_mem _ member)
      have first := every char List.mem_cons_self
      have low : char.toNat - '0'.toNat < 10 := by
        simp only [Char.isDigit, ge_iff_le, Bool.and_eq_true, decide_eq_true_eq] at first
        have upper : char.toNat ≤ '9'.toNat := first.2
        have nine : '9'.toNat = '0'.toNat + 9 := rfl
        omega
      rw [Nat.ofDigitChars_cons, Nat.ofDigitChars_eq_ofDigitChars_zero, Nat.mul_zero, Nat.zero_add,
        List.length_cons, Nat.pow_succ]
      calc 10 ^ digits.length * (char.toNat - '0'.toNat) + Nat.ofDigitChars 10 digits 0
          < 10 ^ digits.length * (char.toNat - '0'.toNat) + 10 ^ digits.length := by omega
        _ = 10 ^ digits.length * (char.toNat - '0'.toNat + 1) := (Nat.mul_add_one _ _).symm
        _ ≤ 10 ^ digits.length * 10 := Nat.mul_le_mul_left _ (by omega)

theorem takeInteger_isDigit {text digits rest : List Char}
    (taken : takeInteger text = some (digits, rest)) : ∀ char ∈ digits, char.isDigit = true := by
  unfold takeInteger at taken
  split at taken
  · obtain ⟨rfl, -⟩ := Prod.mk.inj (Option.some.inj taken)
    simp
  · split at taken
    · rename_i first
      obtain ⟨rfl, -⟩ := Prod.mk.inj (Option.some.inj taken)
      intro char member
      rcases List.mem_cons.mp member with rfl | later
      · exact first
      · exact List.mem_takeWhile_imp later
    · contradiction
  · contradiction

theorem scanNumber_digits {text rest : List Char} {number : Number}
    (scanned : scanNumber text = some (number, rest)) :
    ∀ char ∈ number.digits, char.isDigit = true := by
  simp only [scanNumber, Option.bind_eq_bind, Option.bind_eq_some_iff, Option.pure_def,
    Option.some.injEq, Prod.mk.injEq, Prod.exists] at scanned
  obtain ⟨digits, after, taken, rfl, rfl⟩ := scanned
  exact takeInteger_isDigit taken

/-- A number that is read is a short integer or a floating-point number. -/
theorem Number.value_tidy {text rest : List Char} {number : Number} {value : Value φ}
    (scanned : scanNumber text = some (number, rest))
    (read : number.value (some maxDigits) = .ok value) : Tidy value := by
  unfold Number.value at read
  split at read
  · split at read
    · contradiction
    · rename_i short
      obtain rfl := Except.ok.inj read
      have bound := ofDigitChars_lt (scanNumber_digits scanned)
      have room : (10 : Nat) ^ number.digits.length ≤ 10 ^ maxDigits :=
        Nat.pow_le_pow_right (by decide) (by simpa using short)
      apply Tidy.int
      rw [Nat.length_toDigits_le_iff (by decide) (by decide)]
      split <;> omega
  · obtain rfl := Except.ok.inj read
    exact .float _

def Phrase.Tidy : Phrase φ → Prop
  | .value result => Json.Tidy result
  | .elements items => ∀ item ∈ items, Json.Tidy item
  | .members pairs => ∀ pair ∈ pairs, Joined pair.1 ∧ Json.Tidy pair.2

theorem Spells.tidy {hooks : Hooks φ} (tidy : hooks.Tidy) {limit : Nat} {phrase : Phrase φ}
    {text : List Char} (spelled : Spells hooks limit phrase text) : phrase.Tidy := by
  induction spelled with
  | literal listed =>
      simp only [literals, List.mem_cons, Prod.mk.injEq, List.not_mem_nil, or_false] at listed
      rcases listed with ⟨-, rfl⟩ | ⟨-, rfl⟩ | ⟨-, rfl⟩
      · exact .null
      · exact .bool true
      · exact .bool false
  | number scanned read =>
      rw [tidy.digits] at read
      exact Number.value_tidy scanned read
  | constant read =>
      obtain ⟨number, rfl⟩ := tidy.constant read
      exact .float number
  | string _ => exact .str (joined_joinPairs _)
  | emptyArray _ => exact .arr (by simp)
  | array _ ih => exact .arr ih
  | emptyObject _ read =>
      obtain ⟨kept, rfl, names, among⟩ := tidy.object read
      obtain rfl := List.eq_nil_iff_forall_not_mem.mpr fun pair member =>
        List.not_mem_nil (among pair member)
      exact .obj (by simp) (by simp) (by simp)
  | object _ read ih =>
      obtain ⟨kept, rfl, names, among⟩ := tidy.object read
      exact .obj names (fun pair member => (ih pair (among pair member)).1)
        fun pair member => (ih pair (among pair member)).2
  | lastElement _ _ _ ih =>
      intro item member
      rw [List.mem_singleton.mp member]
      exact ih
  | element _ _ _ _ ih ihRest =>
      intro item member
      rcases List.mem_cons.mp member with rfl | later
      · exact ih
      · exact ihRest item later
  | lastMember _ _ _ _ _ _ ih =>
      intro pair member
      rw [List.mem_singleton.mp member]
      exact ⟨joined_joinPairs _, ih⟩
  | member _ _ _ _ _ _ _ ih ihRest =>
      intro pair member
      rcases List.mem_cons.mp member with rfl | later
      · exact ⟨joined_joinPairs _, ih⟩
      · exact ihRest pair later

/-! ## Brackets -/

/-- What the elements and the members end with. -/
def Phrase.Closes (text : List Char) : Phrase φ → Prop
  | .value _ => True
  | .elements _ => ∃ front, text = front ++ [']']
  | .members _ => ∃ front, text = front ++ ['}']

theorem Spells.closes {hooks : Hooks φ} {limit : Nat} {phrase : Phrase φ} {text : List Char}
    (spelled : Spells hooks limit phrase text) : phrase.Closes text := by
  induction spelled with
  | @lastElement _ _ before text after _ _ _ _ => exact ⟨before ++ (text ++ after), by simp⟩
  | @element _ _ _ before text after tail _ _ _ _ _ closed =>
      obtain ⟨front, rfl⟩ := closed
      exact ⟨before ++ (text ++ (after ++ ',' :: front)), by simp⟩
  | @lastMember _ _ _ before name middle space text after _ _ _ _ _ _ _ =>
      exact ⟨before ++ '"' :: (name ++ '"' :: (middle ++ ':' :: (space ++ (text ++ after)))),
        by simp⟩
  | @member _ _ _ _ before name middle space text after tail _ _ _ _ _ _ _ _ closed =>
      obtain ⟨front, rfl⟩ := closed
      exact ⟨before ++ '"' :: (name ++ '"' :: (middle ++ ':' ::
        (space ++ (text ++ (after ++ ',' :: front))))), by simp⟩
  | _ => trivial

theorem Number.value_ne_arr {limit : Option Nat} {number : Number} {items : List (Value φ)} :
    number.value limit ≠ .ok (.arr items) := by
  unfold Number.value
  repeat' split
  all_goals simp

theorem Number.value_ne_obj {limit : Option Nat} {number : Number}
    {members : List (List Point × Value φ)} : number.value limit ≠ .ok (.obj members) := by
  unfold Number.value
  repeat' split
  all_goals simp

/-- An array stands between brackets. -/
theorem Spells.array_text {hooks : Hooks φ} (tidy : hooks.Tidy) {limit : Nat}
    {items : List (Value φ)} {text : List Char}
    (spelled : Spells hooks limit (.value (.arr items)) text) :
    ∃ middle, text = '[' :: (middle ++ [']']) := by
  cases spelled with
  | literal listed => simp [literals] at listed
  | number _ read => exact absurd read Number.value_ne_arr
  | constant read =>
      obtain ⟨number, same⟩ := tidy.constant read
      contradiction
  | @emptyArray _ space _ => exact ⟨space, rfl⟩
  | array elements =>
      obtain ⟨front, rfl⟩ := elements.closes
      exact ⟨front, rfl⟩
  | emptyObject _ read =>
      obtain ⟨kept, same, -⟩ := tidy.object read
      contradiction
  | object _ read =>
      obtain ⟨kept, same, -⟩ := tidy.object read
      contradiction

/-- An object stands between braces. -/
theorem Spells.object_text {hooks : Hooks φ} (tidy : hooks.Tidy) {limit : Nat}
    {members : List (List Point × Value φ)} {text : List Char}
    (spelled : Spells hooks limit (.value (.obj members)) text) :
    ∃ middle, text = '{' :: (middle ++ ['}']) := by
  cases spelled with
  | literal listed => simp [literals] at listed
  | number _ read => exact absurd read Number.value_ne_obj
  | constant read =>
      obtain ⟨number, same⟩ := tidy.constant read
      contradiction
  | @emptyObject _ _ space _ _ => exact ⟨space, rfl⟩
  | object members _ =>
      obtain ⟨front, rfl⟩ := members.closes
      exact ⟨front, rfl⟩

/-! ## Sorted names -/

theorem Clean.sortKeys {depth : Nat} {value : Value φ} (clean : Clean depth value) :
    Clean depth (sortKeys value) := by
  induction clean with
  | null => exact .null
  | bool value => exact .bool value
  | int short => exact .int short
  | float finite => exact .float finite
  | str joined => exact .str joined
  | arr room _ ih =>
      rw [sortKeys_arr]
      apply Clean.arr
      · simpa using room
      · simpa using ih
  | @obj depth members room names joined _ ih =>
      rw [sortKeys_obj]
      have same := inOrder_perm (members.map fun member => (member.1, Json.sortKeys member.2))
      have each : ∀ {member}, member ∈ inOrder (members.map fun member =>
          (member.1, Json.sortKeys member.2)) →
            ∃ origin ∈ members, (origin.1, Json.sortKeys origin.2) = member :=
        fun listed => List.mem_map.mp (same.mem_iff.mp listed)
      apply Clean.obj
      · intro nonempty
        apply room
        rintro rfl
        exact nonempty same.eq_nil
      · apply ((same.map Prod.fst).nodup_iff).mpr
        rw [List.map_map]
        exact names
      · intro member listed
        obtain ⟨origin, known, rfl⟩ := each listed
        exact joined origin known
      · intro member listed
        obtain ⟨origin, known, rfl⟩ := each listed
        exact ih origin known

/-- Sorting changes nothing the second time. -/
theorem Clean.sortKeys_sortKeys {depth : Nat} {value : Value φ} (clean : Clean depth value) :
    Json.sortKeys (Json.sortKeys value) = Json.sortKeys value := by
  induction clean with
  | null => rfl
  | bool value => rfl
  | int short => rfl
  | float finite => rfl
  | str joined => rfl
  | arr room _ ih =>
      rw [sortKeys_arr, sortKeys_arr, List.map_map]
      congr 1
      exact List.map_congr_left ih
  | @obj depth members room names joined _ ih =>
      rw [sortKeys_obj, sortKeys_obj]
      have sorted := inOrder_sorted (members.map fun member => (member.1, Json.sortKeys member.2))
      have same := inOrder_perm (members.map fun member => (member.1, Json.sortKeys member.2))
      have fixed : (inOrder (members.map fun member => (member.1, Json.sortKeys member.2))).map
          (fun member => (member.1, Json.sortKeys member.2)) =
            inOrder (members.map fun member => (member.1, Json.sortKeys member.2)) := by
        conv_rhs => rw [← List.map_id (inOrder _)]
        apply List.map_congr_left
        intro member listed
        obtain ⟨origin, known, rfl⟩ := List.mem_map.mp (same.mem_iff.mp listed)
        exact congrArg (Prod.mk origin.1) (ih origin known)
      rw [fixed]
      congr 1
      exact sorted.insertionSort_eq

/-! ## The size of what is written -/

/-- The characters that a code point takes in ASCII. -/
def pointSize (point : Point) : Nat :=
  if (shortEscapes.lookup point).isSome then 2
  else if 0x20 ≤ point.val ∧ point.val ≤ 0x7E then 1
  else if point.val < 0x10000 then 6
  else 12

/-- The characters that a quoted string takes in ASCII. -/
def quotedSize (points : List Point) : Nat := 2 + (points.map pointSize).sum

mutual

/-- The characters that a value takes, written compactly and in ASCII. -/
def compactSize : Value φ → Nat
  | .null => 4
  | .bool value => if value then 4 else 5
  | .int value => (intText value).length
  | .float value => (Floats.write value).length
  | .str points => quotedSize points
  | .arr items => 1 + itemsSize items + max 1 items.length
  | .obj members => 1 + membersSize members + max 1 members.length

/-- The elements of an array without their commas. -/
def itemsSize : List (Value φ) → Nat
  | [] => 0
  | item :: items => compactSize item + itemsSize items

/-- The members of an object without their commas. -/
def membersSize : List (List Point × Value φ) → Nat
  | [] => 0
  | (name, item) :: members => quotedSize name + 1 + compactSize item + membersSize members

end

theorem length_asciiPoint (point : Point) : (asciiPoint point).length = pointSize point := by
  unfold asciiPoint pointSize
  split
  · rename_i found
    rw [if_pos (by rw [found]; rfl)]
    rfl
  · rename_i plain
    simp only [plain, Option.isSome_none, Bool.false_eq_true, if_false]
    split
    · rfl
    · split <;> simp [hexEscape]

theorem length_quoted (points : List Point) :
    (asciiInk.quoted points).length = quotedSize points := by
  have contents : (points.flatMap asciiPoint).length = (points.map pointSize).sum := by
    rw [List.length_flatMap]
    exact congrArg List.sum (List.map_congr_left fun point _ => length_asciiPoint point)
  rw [Ink.quoted, List.length_cons, List.length_append]
  show (points.flatMap asciiPoint).length + 1 + 1 = _
  rw [contents, quotedSize]
  omega

mutual

theorem length_write : (value : Value φ) → (write asciiInk value).length = compactSize value
  | .null => rfl
  | .bool true => rfl
  | .bool false => rfl
  | .int value => by rw [write, word_ascii, compactSize]
  | .float value => by rw [write, word_ascii, compactSize]
  | .str points => by rw [write, length_quoted, compactSize]
  | .arr items => by
      rw [write, List.length_cons, length_writeItems, compactSize]
      omega
  | .obj members => by
      rw [write, List.length_cons, length_writeMembers, compactSize]
      omega

theorem length_writeItems : (items : List (Value φ)) →
    (writeItems asciiInk items).length = itemsSize items + max 1 items.length
  | [] => rfl
  | [item] => by
      rw [writeItems, List.length_append, length_write item]
      simp [itemsSize]
  | item :: next :: items => by
      rw [writeItems, List.length_append, length_write item, List.length_cons,
        length_writeItems (next :: items)]
      · simp only [itemsSize, List.length_cons]
        omega
      · simp

theorem length_writeMembers : (members : List (List Point × Value φ)) →
    (writeMembers asciiInk members).length = membersSize members + max 1 members.length
  | [] => rfl
  | [(name, item)] => by
      rw [writeMembers, List.length_append, length_quoted, List.length_cons, List.length_append,
        length_write item]
      simp [membersSize]
      omega
  | (name, item) :: next :: members => by
      rw [writeMembers, List.length_append, length_quoted, List.length_cons, List.length_append,
        length_write item, List.length_cons, length_writeMembers (next :: members)]
      · simp only [membersSize, List.length_cons]
        omega
      · simp

end

theorem itemsSize_eq (items : List (Value φ)) : itemsSize items = (items.map compactSize).sum := by
  induction items with
  | nil => rfl
  | cons item items ih => rw [itemsSize, ih, List.map_cons, List.sum_cons]

theorem membersSize_eq (members : List (List Point × Value φ)) :
    membersSize members =
      (members.map fun member => quotedSize member.1 + 1 + compactSize member.2).sum := by
  induction members with
  | nil => rfl
  | cons member members ih => rw [membersSize, ih, List.map_cons, List.sum_cons]

/-- The order of the names does not change the size. -/
theorem Clean.compactSize_sortKeys {depth : Nat} {value : Value φ} (clean : Clean depth value) :
    compactSize (Json.sortKeys value) = compactSize value := by
  induction clean with
  | null => rfl
  | bool value => rfl
  | int short => rfl
  | float finite => rfl
  | str joined => rfl
  | arr room _ ih =>
      rw [sortKeys_arr, compactSize, compactSize, itemsSize_eq, itemsSize_eq, List.length_map,
        List.map_map]
      congr 3
      exact List.map_congr_left ih
  | @obj depth members room names joined _ ih =>
      have same := inOrder_perm (members.map fun member => (member.1, Json.sortKeys member.2))
      rw [sortKeys_obj, compactSize, compactSize, membersSize_eq, membersSize_eq,
        (same.map _).sum_nat, same.length_eq, List.length_map, List.map_map]
      congr 3
      apply List.map_congr_left
      intro member listed
      exact congrArg (quotedSize member.1 + 1 + ·) (ih member listed)

/-! ### What is written is ASCII -/

/-- All characters of a text are ASCII. -/
def Ascii (text : List Char) : Prop := ∀ char ∈ text, char.toNat < 0x80

instance (text : List Char) : Decidable (Ascii text) :=
  inferInstanceAs (Decidable (∀ char ∈ text, char.toNat < 0x80))

theorem Ascii.append {first second : List Char} (early : Ascii first) (late : Ascii second) :
    Ascii (first ++ second) := by
  intro char member
  rcases List.mem_append.mp member with left | right
  · exact early char left
  · exact late char right

theorem Ascii.cons {char : Char} {text : List Char} (first : char.toNat < 0x80)
    (rest : Ascii text) : Ascii (char :: text) := by
  intro other member
  rcases List.mem_cons.mp member with rfl | later
  · exact first
  · exact rest other later

theorem ascii_of_isDigit {text : List Char} (every : ∀ char ∈ text, char.isDigit = true) :
    Ascii text := by
  intro char member
  have digit := every char member
  simp only [Char.isDigit, ge_iff_le, Bool.and_eq_true, decide_eq_true_eq] at digit
  have upper : char.toNat ≤ '9'.toNat := digit.2
  have nine : '9'.toNat = 57 := rfl
  omega

theorem ascii_hexEscape (value : Nat) : Ascii (hexEscape value) := by
  have digit : ∀ number : Nat, (hexChar (number % 16)).toNat < 0x80 := by
    intro number
    have every : ∀ small : Fin 16, (hexChar small.val).toNat < 0x80 := by decide
    exact every ⟨number % 16, Nat.mod_lt _ (by decide)⟩
  exact .cons (by decide) (.cons (by decide) (.cons (digit _) (.cons (digit _)
    (.cons (digit _) (.cons (digit _) (by simp [Ascii]))))))

theorem ascii_asciiPoint (point : Point) : Ascii (asciiPoint point) := by
  unfold asciiPoint
  split
  · rename_i char found
    have every : ∀ entry ∈ shortEscapes, entry.2.toNat < 0x80 := by decide
    exact .cons (by decide) (.cons (every _ (lookup_mem found)) (by simp [Ascii]))
  · split
    · rename_i printable
      apply Ascii.cons
      · rw [toNat_ofNat (by omega)]
        omega
      · simp [Ascii]
    · split
      · exact ascii_hexEscape _
      · exact (ascii_hexEscape _).append (ascii_hexEscape _)

theorem ascii_quoted (points : List Point) : Ascii (asciiInk.quoted points) := by
  have contents : Ascii (points.flatMap asciiPoint) := by
    intro char member
    obtain ⟨point, -, listed⟩ := List.mem_flatMap.mp member
    exact ascii_asciiPoint point char listed
  exact .cons (by decide) (contents.append (.cons (by decide) (by simp [Ascii])))

theorem ascii_takeFraction (text : List Char) : Ascii (takeFraction text).1 := by
  unfold takeFraction
  split
  · split
    · rename_i first
      apply Ascii.cons (by decide)
      apply ascii_of_isDigit
      intro char member
      rcases List.mem_cons.mp member with rfl | later
      · exact first
      · exact List.mem_takeWhile_imp later
    · simp [Ascii]
  · simp [Ascii]

theorem ascii_takeExponentDigits {lead : List Char} (early : Ascii lead) (whole text : List Char) :
    Ascii (takeExponentDigits lead whole text).1 := by
  unfold takeExponentDigits
  split
  · split
    · rename_i first
      apply early.append
      apply ascii_of_isDigit
      intro char member
      rcases List.mem_cons.mp member with rfl | later
      · exact first
      · exact List.mem_takeWhile_imp later
    · simp [Ascii]
  · simp [Ascii]

theorem ascii_takeExponent (text : List Char) : Ascii (takeExponent text).1 := by
  unfold takeExponent
  split
  · split
    · rename_i letter sign _ exponent
      have first : letter.toNat < 0x80 := by
        rcases exponent with rfl | rfl <;> decide
      split
      · rename_i signed
        apply ascii_takeExponentDigits
        apply Ascii.cons first
        apply Ascii.cons
        · rcases signed with rfl | rfl <;> decide
        · simp [Ascii]
      · apply ascii_takeExponentDigits
        exact .cons first (by simp [Ascii])
    · simp [Ascii]
  · simp [Ascii]

/-- A number is ASCII. -/
theorem scanNumber_ascii {text rest : List Char} {number : Number}
    (scanned : scanNumber text = some (number, rest)) : Ascii number.text := by
  have digits := ascii_of_isDigit (scanNumber_digits scanned)
  simp only [scanNumber, Option.bind_eq_bind, Option.bind_eq_some_iff, Option.pure_def,
    Option.some.injEq, Prod.mk.injEq, Prod.exists] at scanned
  obtain ⟨_, after, _, rfl, rfl⟩ := scanned
  have sign : Ascii (if (takeSign text).1 then ['-'] else []) := by
    split <;> simp [Ascii]
  exact ((sign.append digits).append (ascii_takeFraction after)).append (ascii_takeExponent _)

theorem ascii_writeItems {items : List (Value φ)}
    (each : ∀ item ∈ items, Ascii (write asciiInk item)) : Ascii (writeItems asciiInk items) := by
  have closes : Ascii [']'] := .cons (by decide) (by simp [Ascii])
  induction items with
  | nil => exact closes
  | cons item items ih =>
      have first := each item List.mem_cons_self
      cases items with
      | nil => exact first.append closes
      | cons next items =>
          have rest := ih fun other member => each other (List.mem_cons_of_mem _ member)
          exact first.append (.cons (by decide) rest)

theorem ascii_writeMembers {members : List (List Point × Value φ)}
    (each : ∀ member ∈ members, Ascii (write asciiInk member.2)) :
    Ascii (writeMembers asciiInk members) := by
  have closes : Ascii ['}'] := .cons (by decide) (by simp [Ascii])
  induction members with
  | nil => exact closes
  | cons member members ih =>
      have first := each member List.mem_cons_self
      cases members with
      | nil => exact (ascii_quoted _).append (.cons (by decide) (first.append closes))
      | cons next members =>
          have rest := ih fun other member => each other (List.mem_cons_of_mem _ member)
          exact (ascii_quoted _).append
            (.cons (by decide) (first.append (.cons (by decide) rest)))

theorem Clean.ascii [LawfulFloats φ] {depth : Nat} {value : Value φ} (clean : Clean depth value) :
    Ascii (write asciiInk value) := by
  induction clean with
  | null =>
      rw [write, word_ascii]
      simp [Ascii]
  | bool value =>
      cases value with
      | false =>
          rw [write, word_ascii]
          simp [Ascii]
      | true =>
          rw [write, word_ascii]
          simp [Ascii]
  | @int _ value short =>
      rw [write, word_ascii]
      have sign : Ascii (if value < 0 then ['-'] else []) := by
        split <;> simp [Ascii]
      exact sign.append (ascii_of_isDigit fun _ member =>
        Nat.isDigit_of_mem_toDigits (by decide) (by decide) member)
  | @float _ value finite =>
      obtain ⟨number, scanned, -⟩ := LawfulFloats.spelled finite
      have split := scanNumber_split scanned
      rw [List.append_nil] at split
      rw [write, word_ascii, split]
      exact scanNumber_ascii scanned
  | str joined => exact ascii_quoted _
  | arr room _ ih => exact .cons (by decide) (ascii_writeItems ih)
  | obj room names joined _ ih => exact .cons (by decide) (ascii_writeMembers ih)

/-! ## Strings without escapes -/

/-- A text that a string can hold as it is. -/
def Literal (text : List Char) : Prop :=
  ∀ char ∈ text, char ≠ '"' ∧ char ≠ '\\' ∧ ¬ char.toNat < 0x20

theorem literal_units {text : List Char} (literal : Literal text) :
    UnitsText (text.map pointOf) text := by
  induction text with
  | nil => exact .nil
  | cons char text ih =>
      obtain ⟨quote, slash, control⟩ := literal char List.mem_cons_self
      have rest := ih fun other member => literal other (List.mem_cons_of_mem _ member)
      exact .cons (.plain quote slash control) rest

theorem joinPairs_eq_self {points : List Point}
    (single : ∀ point ∈ points, isHighSurrogate point = false) : joinPairs points = points := by
  induction points with
  | nil => rfl
  | cons point points ih =>
      rw [joinPairs_cons, ih fun other member => single other (List.mem_cons_of_mem _ member)]
      intro next _
      simp [single point List.mem_cons_self]

theorem isHighSurrogate_pointOf (char : Char) : isHighSurrogate (pointOf char) = false := by
  have bound := char.valid
  have value : char.toNat = char.val.toNat := rfl
  have small : char.toNat < 0x110000 := by
    rcases bound with low | high
    · have : char.val.toNat < 0xD800 := low
      omega
    · exact high.2
  simp only [isHighSurrogate, pointOf, Fin.val_ofNat, Nat.mod_eq_of_lt small,
    Bool.and_eq_false_iff, decide_eq_false_iff_not]
  rcases bound with low | high
  · have : char.val.toNat < 0xD800 := low
    omega
  · have : 0xDFFF < char.val.toNat := high.1
    omega

theorem joinPairs_literal (text : List Char) :
    joinPairs (text.map pointOf) = text.map pointOf := by
  apply joinPairs_eq_self
  intro point member
  obtain ⟨char, -, rfl⟩ := List.mem_map.mp member
  exact isHighSurrogate_pointOf char

/-- A text that needs no escapes spells its own code points. -/
theorem literal_spells {hooks : Hooks φ} {limit : Nat} {text : List Char}
    (literal : Literal text) :
    Spells hooks limit (.value (.str (text.map pointOf))) ('"' :: (text ++ ['"'])) := by
  have spelled : Spells hooks limit _ _ := .string (literal_units literal)
  rwa [joinPairs_literal] at spelled

/-! ## Numbers kept as their texts -/

/-- The text is a number with a fraction or an exponent. -/
def isDecimal (text : List Char) : Bool :=
  match scanNumber text with
  | some (number, []) => decide (¬ (number.fraction = [] ∧ number.exponent = []))
  | _ => false

/-- A floating-point number that keeps the text it was read from; without a text
it is not finite. -/
structure Verbatim where
  text : Option {text : List Char // isDecimal text = true}

instance : Floats Verbatim where
  read text := ⟨if decimal : isDecimal text = true then some ⟨text, decimal⟩ else none⟩
  write value := (value.text.map Subtype.val).getD Constant.nan.text
  finite value := value.text.isSome
  constant _ := ⟨none⟩

instance : LawfulFloats Verbatim where
  spelled := by
    rintro ⟨_ | ⟨text, decimal⟩⟩ finite
    · contradiction
    · unfold isDecimal at decimal
      split at decimal
      · rename_i number scanned
        exact ⟨number, scanned, of_decide_eq_true decimal⟩
      · contradiction
  read_write := by
    rintro ⟨_ | ⟨text, decimal⟩⟩ finite
    · contradiction
    · show Verbatim.mk (if decimal : isDecimal text = true then some ⟨text, decimal⟩ else none) = _
      rw [dif_pos decimal]

/-! ### Surrogates -/

theorem lookup_large {point : Point} (large : 0x5C < point.val) :
    shortEscapes.lookup point = none := by
  have small : ∀ entry ∈ shortEscapes, entry.1.val ≤ 0x5C := by decide
  cases found : shortEscapes.lookup point with
  | none => rfl
  | some char =>
      have listed := small _ (lookup_mem found)
      simp only at listed
      omega

theorem asciiPoint_narrow {point : Point} (large : 0x7E < point.val) (narrow : point.val < 0x10000) :
    asciiPoint point = hexEscape point.val := by
  rw [asciiPoint, lookup_large (by omega)]
  simp only [if_neg (show ¬ (0x20 ≤ point.val ∧ point.val ≤ 0x7E) by omega), if_pos narrow]

theorem asciiPoint_wide {point : Point} (wide : 0x10000 ≤ point.val) :
    asciiPoint point =
      hexEscape (highSurrogate point.val) ++ hexEscape (lowSurrogate point.val) := by
  rw [asciiPoint, lookup_large (by omega)]
  simp only [if_neg (show ¬ (0x20 ≤ point.val ∧ point.val ≤ 0x7E) by omega),
    if_neg (show ¬ point.val < 0x10000 by omega)]

/-- A pair of surrogates is written like the code point that it stands for. -/
theorem asciiPoint_joinPair {high low : Point} (isHigh : isHighSurrogate high = true)
    (isLow : isLowSurrogate low = true) :
    asciiPoint (joinPair high low) = asciiPoint high ++ asciiPoint low := by
  simp only [isHighSurrogate, isLowSurrogate, Bool.and_eq_true, decide_eq_true_eq] at isHigh isLow
  have value : (joinPair high low).val =
      0x10000 + (high.val - 0xD800) * 0x400 + (low.val - 0xDC00) := by
    rw [joinPair, Fin.val_ofNat]
    omega
  have first : highSurrogate (joinPair high low).val = high.val := by
    rw [value]
    unfold highSurrogate
    omega
  have second : lowSurrogate (joinPair high low).val = low.val := by
    rw [value]
    unfold lowSurrogate
    omega
  rw [asciiPoint_wide (by omega), first, second, asciiPoint_narrow (by omega) (by omega),
    asciiPoint_narrow (by omega) (by omega)]

/-- In ASCII a string is written like what the reader joins it to. -/
theorem ascii_joinPairs (points : List Point) :
    (joinPairs points).flatMap asciiPoint = points.flatMap asciiPoint := by
  induction points using joinPairs.induct with
  | case1 => rfl
  | case2 point => rfl
  | case3 first second rest pair ih =>
      rw [joinPairs, if_pos pair, List.flatMap_cons, ih, List.flatMap_cons, List.flatMap_cons]
      rw [Bool.and_eq_true] at pair
      rw [asciiPoint_joinPair pair.1 pair.2, List.append_assoc]
  | case4 first second rest apart ih =>
      rw [joinPairs, if_neg apart, List.flatMap_cons, ih, ← List.flatMap_cons]

end Json
