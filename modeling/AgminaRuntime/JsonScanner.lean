import AgminaRuntime.JsonText

/-!
# Reading JSON

The reader of Python's `json` with its two hooks, and the grammar of the texts
it reads: the reader returns a value exactly when the text spells one, and what
it leaves behind does not matter, so long as no number goes on.
-/

namespace Json

variable {φ : Type} [Floats φ]

/-- What a decoder does with the members of an object and with the words that
are not JSON, and the digits that `int(...)` takes, if they are limited. -/
structure Hooks (φ : Type) where
  object : List (List Point × Value φ) → Except Fault (Value φ)
  constant : Constant → Except Fault (Value φ)
  digits : Option Nat

def literals : List (List Char × Value φ) :=
  [(['n', 'u', 'l', 'l'], .null), (['t', 'r', 'u', 'e'], .bool true),
    (['f', 'a', 'l', 's', 'e'], .bool false)]

def constants : List (List Char × Constant) :=
  [Constant.nan, .infinity, .negativeInfinity].map fun constant => (constant.text, constant)

/-- The first word of a table that the text begins with. -/
def findWord {α : Type} (words : List (List Char × α)) (text : List Char) :
    Option (α × List Char) :=
  words.findSome? fun word => (text.dropPrefix? word.1).map fun rest => (word.2, rest)

/-- A value that is no string, array or object. -/
def scanScalar (hooks : Hooks φ) (text : List Char) : Scan (Value φ) :=
  match findWord literals text with
  | some (value, rest) => .ok (value, rest)
  | none =>
      match scanNumber text with
      | some (number, rest) => (number.value hooks.digits).map fun value => (value, rest)
      | none =>
          match findWord constants text with
          | some (constant, rest) => (hooks.constant constant).map fun value => (value, rest)
          | none => .error (.decode .expectingValue)

/-- A string behind its opening quote. -/
def scanString (text : List Char) : Scan (List Point) :=
  (scanUnits text).andThen fun points rest => .ok (joinPairs points, rest)

mutual

/-- `scan_once`.  Each call takes one unit of fuel and each level of nesting one
of the recursion limit. -/
def scanOnce (hooks : Hooks φ) : Nat → Nat → List Char → Scan (Value φ)
  | 0, _, _ => .error (.decode .expectingValue)
  | _ + 1, _, [] => .error (.decode .expectingValue)
  | fuel + 1, limit, char :: rest =>
      if char = '"' then (scanString rest).andThen fun points rest => .ok (.str points, rest)
      else if char = '{' then
        match limit with
        | 0 => .error .recursion
        | limit + 1 => scanObject hooks fuel limit rest
      else if char = '[' then
        match limit with
        | 0 => .error .recursion
        | limit + 1 => scanArray hooks fuel limit rest
      else scanScalar hooks (char :: rest)

/-- The rest of an array behind its bracket. -/
def scanArray (hooks : Hooks φ) : Nat → Nat → List Char → Scan (Value φ)
  | 0, _, _ => .error (.decode .expectingValue)
  | fuel + 1, limit, text =>
      match skipSpace text with
      | ']' :: rest => .ok (.arr [], rest)
      | _ => (scanElements hooks fuel limit text).andThen fun items rest => .ok (.arr items, rest)

/-- The elements of an array up to its closing bracket. -/
def scanElements (hooks : Hooks φ) : Nat → Nat → List Char → Scan (List (Value φ))
  | 0, _, _ => .error (.decode .expectingValue)
  | fuel + 1, limit, text =>
      (scanOnce hooks fuel limit (skipSpace text)).andThen fun item rest =>
        match skipSpace rest with
        | ',' :: rest => (scanElements hooks fuel limit rest).andThen fun items rest =>
            .ok (item :: items, rest)
        | ']' :: rest => .ok ([item], rest)
        | _ => .error (.decode .expectingComma)

/-- The rest of an object behind its brace. -/
def scanObject (hooks : Hooks φ) : Nat → Nat → List Char → Scan (Value φ)
  | 0, _, _ => .error (.decode .expectingValue)
  | fuel + 1, limit, text =>
      match skipSpace text with
      | '}' :: rest => (hooks.object []).map fun value => (value, rest)
      | _ => (scanMembers hooks fuel limit text).andThen fun members rest =>
          (hooks.object members).map fun value => (value, rest)

/-- The members of an object up to its closing brace. -/
def scanMembers (hooks : Hooks φ) : Nat → Nat → List Char → Scan (List (List Point × Value φ))
  | 0, _, _ => .error (.decode .expectingValue)
  | fuel + 1, limit, text =>
      match skipSpace text with
      | '"' :: rest => (scanString rest).andThen fun name rest =>
          match skipSpace rest with
          | ':' :: rest => (scanOnce hooks fuel limit (skipSpace rest)).andThen fun item rest =>
              match skipSpace rest with
              | ',' :: rest => (scanMembers hooks fuel limit rest).andThen fun members rest =>
                  .ok ((name, item) :: members, rest)
              | '}' :: rest => .ok ([(name, item)], rest)
              | _ => .error (.decode .expectingComma)
          | _ => .error (.decode .expectingColon)
      | _ => .error (.decode .expectingName)

end

/-- `json.loads` under a recursion limit.  Between two characters that it takes
the reader makes at most three calls. -/
def loads (hooks : Hooks φ) (limit : Nat) (text : List Char) : Except Fault (Value φ) :=
  match scanOnce hooks (3 * text.length) limit (skipSpace text) with
  | .error fault => .error fault
  | .ok (value, rest) =>
      match skipSpace rest with
      | [] => .ok value
      | _ => .error (.decode .extraData)

/-! ## The grammar -/

/-- What a part of a text stands for. -/
inductive Phrase (φ : Type) where
  | value (value : Value φ)
  | elements (items : List (Value φ))
  | members (members : List (List Point × Value φ))

/-- A text spells a phrase within a nesting depth; the elements of an array and
the members of an object include the closing bracket. -/
inductive Spells (hooks : Hooks φ) : Nat → Phrase φ → List Char → Prop
  | literal {limit : Nat} {word : List Char} {value : Value φ}
      (listed : (word, value) ∈ literals) : Spells hooks limit (.value value) word
  | number {limit : Nat} {text : List Char} {number : Number} {value : Value φ}
      (scanned : scanNumber text = some (number, []))
      (read : number.value hooks.digits = .ok value) :
      Spells hooks limit (.value value) text
  | constant {limit : Nat} {constant : Constant} {value : Value φ}
      (read : hooks.constant constant = .ok value) :
      Spells hooks limit (.value value) constant.text
  | string {limit : Nat} {points : List Point} {text : List Char}
      (units : UnitsText points text) :
      Spells hooks limit (.value (.str (joinPairs points))) ('"' :: (text ++ ['"']))
  | emptyArray {limit : Nat} {space : List Char} (blank : Space space) :
      Spells hooks (limit + 1) (.value (.arr [])) ('[' :: (space ++ [']']))
  | array {limit : Nat} {items : List (Value φ)} {text : List Char}
      (elements : Spells hooks limit (.elements items) text) :
      Spells hooks (limit + 1) (.value (.arr items)) ('[' :: text)
  | emptyObject {limit : Nat} {value : Value φ} {space : List Char} (blank : Space space)
      (read : hooks.object [] = .ok value) :
      Spells hooks (limit + 1) (.value value) ('{' :: (space ++ ['}']))
  | object {limit : Nat} {members : List (List Point × Value φ)} {value : Value φ}
      {text : List Char} (spelled : Spells hooks limit (.members members) text)
      (read : hooks.object members = .ok value) :
      Spells hooks (limit + 1) (.value value) ('{' :: text)
  | lastElement {limit : Nat} {item : Value φ} {before text after : List Char}
      (early : Space before) (spelled : Spells hooks limit (.value item) text)
      (late : Space after) :
      Spells hooks limit (.elements [item]) (before ++ (text ++ (after ++ [']'])))
  | element {limit : Nat} {item : Value φ} {items : List (Value φ)}
      {before text after tail : List Char} (early : Space before)
      (spelled : Spells hooks limit (.value item) text) (late : Space after)
      (rest : Spells hooks limit (.elements items) tail) :
      Spells hooks limit (.elements (item :: items)) (before ++ (text ++ (after ++ ',' :: tail)))
  | lastMember {limit : Nat} {points : List Point} {item : Value φ}
      {before name middle space text after : List Char} (early : Space before)
      (units : UnitsText points name) (colon : Space middle) (gap : Space space)
      (spelled : Spells hooks limit (.value item) text) (late : Space after) :
      Spells hooks limit (.members [(joinPairs points, item)])
        (before ++ '"' :: (name ++ '"' :: (middle ++ ':' :: (space ++ (text ++ (after ++ ['}']))))))
  | member {limit : Nat} {points : List Point} {item : Value φ}
      {members : List (List Point × Value φ)}
      {before name middle space text after tail : List Char} (early : Space before)
      (units : UnitsText points name) (colon : Space middle) (gap : Space space)
      (spelled : Spells hooks limit (.value item) text) (late : Space after)
      (rest : Spells hooks limit (.members members) tail) :
      Spells hooks limit (.members ((joinPairs points, item) :: members))
        (before ++ '"' :: (name ++ '"' :: (middle ++ ':' ::
          (space ++ (text ++ (after ++ ',' :: tail))))))

/-! ## What is spelled is read -/

/-- The first character of a value. -/
def Opens (char : Char) : Prop :=
  char.isDigit = true ∨ char ∈ ['-', 'n', 't', 'f', 'N', 'I', '"', '[', '{']

theorem Opens.solid {char : Char} (opens : Opens char) : char.isWhitespace = false := by
  rcases opens with digit | listed
  · cases blank : char.isWhitespace with
    | false => rfl
    | true => rw [(isDigit_of_isWhitespace blank).1] at digit; contradiction
  · simp only [List.mem_cons, List.not_mem_nil, or_false] at listed
    rcases listed with rfl | rfl | rfl | rfl | rfl | rfl | rfl | rfl | rfl <;> rfl

theorem Opens.not_bracket {char : Char} (opens : Opens char) : char ≠ ']' := by
  rintro rfl
  rcases opens with digit | listed
  · contradiction
  · simp at listed

section Scalars

variable {hooks : Hooks φ} {rest : List Char}

theorem findWord_none {α : Type} {words : List (List Char × α)} {char : Char} {text : List Char}
    (differs : ∀ word ∈ words, ∃ first tail, word.1 = first :: tail ∧ first ≠ char) :
    findWord words (char :: text) = none := by
  rw [findWord, List.findSome?_eq_none_iff]
  intro word member
  obtain ⟨first, tail, wordEq, other⟩ := differs word member
  rw [wordEq, Option.map_eq_none_iff, List.dropPrefix?]
  simp [Ne.symm other]

theorem scanScalar_literal {word : List Char} {value : Value φ}
    (listed : (word, value) ∈ literals) :
    scanScalar hooks (word ++ rest) = .ok (value, rest) := by
  simp only [literals, List.mem_cons, Prod.mk.injEq, List.not_mem_nil, or_false] at listed
  rcases listed with ⟨rfl, rfl⟩ | ⟨rfl, rfl⟩ | ⟨rfl, rfl⟩ <;>
    simp [scanScalar, findWord, literals, List.dropPrefix?]

theorem scanScalar_constant {constant : Constant} {value : Value φ}
    (read : hooks.constant constant = .ok value) :
    scanScalar hooks (constant.text ++ rest) = .ok (value, rest) := by
  have found : scanScalar hooks (constant.text ++ rest) =
      (hooks.constant constant).map fun value => (value, rest) := by
    cases constant <;> simp [scanScalar, findWord, literals, constants, Constant.text,
      List.dropPrefix?, scanNumber, takeSign, takeInteger]
  rw [found, read]
  rfl

theorem scanScalar_number {text : List Char} {number : Number} {value : Value φ} (ends : Ends rest)
    (scanned : scanNumber text = some (number, []))
    (read : number.value hooks.digits = .ok value) :
    scanScalar hooks (text ++ rest) = .ok (value, rest) := by
  obtain ⟨char, tail, rfl, opens⟩ := scanNumber_head scanned
  have plain : findWord (literals : List (List Char × Value φ)) (char :: (tail ++ rest)) = none := by
    apply findWord_none
    intro word member
    simp only [literals, List.mem_cons, List.not_mem_nil, or_false] at member
    rcases member with rfl | rfl | rfl
    · exact ⟨'n', _, rfl, by rintro rfl; simp at opens⟩
    · exact ⟨'t', _, rfl, by rintro rfl; simp at opens⟩
    · exact ⟨'f', _, rfl, by rintro rfl; simp at opens⟩
  have whole : scanNumber (char :: (tail ++ rest)) = some (number, rest) := by
    rw [← List.cons_append, scanNumber_append ends, scanned]
    rfl
  rw [List.cons_append, scanScalar, plain, whole]
  simp only [read]
  rfl

end Scalars

section Reading

variable {hooks : Hooks φ} {limit : Nat}

theorem skipSpace_opens {char : Char} (opens : Opens char) {space : List Char} (blank : Space space)
    (rest : List Char) : skipSpace (space ++ char :: rest) = char :: rest := by
  rw [skipSpace_of_space blank, skipSpace_cons opens.solid]

/-- A value begins with one of a few characters. -/
theorem Spells.opens {value : Value φ} {text : List Char}
    (spelled : Spells hooks limit (.value value) text) :
    ∃ char tail, text = char :: tail ∧ Opens char := by
  cases spelled with
  | literal listed =>
      simp only [literals, List.mem_cons, Prod.mk.injEq, List.not_mem_nil, or_false] at listed
      rcases listed with ⟨rfl, -⟩ | ⟨rfl, -⟩ | ⟨rfl, -⟩
      · exact ⟨_, _, rfl, .inr (by simp)⟩
      · exact ⟨_, _, rfl, .inr (by simp)⟩
      · exact ⟨_, _, rfl, .inr (by simp)⟩
  | number scanned _ =>
      obtain ⟨char, tail, same, opens⟩ := scanNumber_head scanned
      refine ⟨char, tail, same, ?_⟩
      rcases opens with rfl | digit
      · exact .inr (by simp)
      · exact .inl digit
  | @constant _ constant _ _ => cases constant <;> exact ⟨_, _, rfl, .inr (by simp)⟩
  | string _ => exact ⟨_, _, rfl, .inr (by simp)⟩
  | emptyArray _ => exact ⟨_, _, rfl, .inr (by simp)⟩
  | array _ => exact ⟨_, _, rfl, .inr (by simp)⟩
  | emptyObject _ _ => exact ⟨_, _, rfl, .inr (by simp)⟩
  | object _ _ => exact ⟨_, _, rfl, .inr (by simp)⟩

/-- The reader takes what a text spells and leaves the rest. -/
def Phrase.Reads (hooks : Hooks φ) (limit : Nat) (text : List Char) : Phrase φ → Prop
  | .value result => ∀ fuel rest, 3 * text.length ≤ fuel → Ends rest →
      scanOnce hooks fuel limit (text ++ rest) = .ok (result, rest)
  | .elements items => ∀ fuel rest, 3 * text.length ≤ fuel →
      scanElements hooks fuel limit (text ++ rest) = .ok (items, rest)
  | .members pairs => ∀ fuel rest, 3 * text.length ≤ fuel →
      scanMembers hooks fuel limit (text ++ rest) = .ok (pairs, rest)

/-! ### One step of the reader -/

theorem scanOnce_scalar {char : Char} {rest : List Char} (quote : char ≠ '"') (brace : char ≠ '{')
    (bracket : char ≠ '[') (fuel : Nat) :
    scanOnce hooks (fuel + 1) limit (char :: rest) = scanScalar hooks (char :: rest) := by
  unfold scanOnce
  rw [if_neg quote, if_neg brace, if_neg bracket]

theorem scanOnce_quote (fuel : Nat) (rest : List Char) :
    scanOnce hooks (fuel + 1) limit ('"' :: rest) =
      (scanString rest).andThen fun points rest => .ok (.str points, rest) := by
  unfold scanOnce
  rw [if_pos rfl]

theorem scanOnce_bracket (fuel : Nat) (rest : List Char) :
    scanOnce hooks (fuel + 1) (limit + 1) ('[' :: rest) = scanArray hooks fuel limit rest := by
  conv_lhs => unfold scanOnce
  rw [if_neg (by decide), if_neg (by decide), if_pos rfl]

theorem scanOnce_brace (fuel : Nat) (rest : List Char) :
    scanOnce hooks (fuel + 1) (limit + 1) ('{' :: rest) = scanObject hooks fuel limit rest := by
  conv_lhs => unfold scanOnce
  rw [if_neg (by decide), if_pos rfl]

theorem scanArray_close {text rest : List Char} (closes : skipSpace text = ']' :: rest)
    (fuel : Nat) : scanArray hooks (fuel + 1) limit text = .ok (.arr [], rest) := by
  unfold scanArray
  rw [closes]
  rfl

theorem scanArray_open {text tail : List Char} {char : Char} (opens : skipSpace text = char :: tail)
    (bracket : char ≠ ']') (fuel : Nat) :
    scanArray hooks (fuel + 1) limit text =
      (scanElements hooks fuel limit text).andThen fun items rest => .ok (.arr items, rest) := by
  conv_lhs => unfold scanArray
  rw [opens]
  split
  · simp_all
  · rfl

theorem scanObject_close {text rest : List Char} (closes : skipSpace text = '}' :: rest)
    (fuel : Nat) :
    scanObject hooks (fuel + 1) limit text =
      (hooks.object []).map fun value => (value, rest) := by
  unfold scanObject
  rw [closes]
  rfl

theorem scanObject_open {text tail : List Char} (opens : skipSpace text = '"' :: tail)
    (fuel : Nat) :
    scanObject hooks (fuel + 1) limit text =
      (scanMembers hooks fuel limit text).andThen fun members rest =>
        (hooks.object members).map fun value => (value, rest) := by
  conv_lhs => unfold scanObject
  rw [opens]
  rfl

theorem scanElements_step (fuel : Nat) (text : List Char) :
    scanElements hooks (fuel + 1) limit text =
      (scanOnce hooks fuel limit (skipSpace text)).andThen fun item rest =>
        match skipSpace rest with
        | ',' :: rest => (scanElements hooks fuel limit rest).andThen fun items rest =>
            .ok (item :: items, rest)
        | ']' :: rest => .ok ([item], rest)
        | _ => .error (.decode .expectingComma) := by
  conv_lhs => unfold scanElements

theorem scanString_spelled {points : List Point} {text : List Char}
    (units : UnitsText points text) (rest : List Char) :
    scanString (text ++ '"' :: rest) = .ok (joinPairs points, rest) := by
  rw [scanString, units.scan]
  rfl

/-- The value at the start of an element or behind a colon, and the white space
after it. -/
theorem Phrase.Reads.item {value : Value φ} {text : List Char}
    (reads : (Phrase.value value).Reads hooks limit text) {char : Char} {tail : List Char}
    (textEq : text = char :: tail) (opens : Opens char) {before after rest : List Char}
    (early : Space before) (late : Space after) {next : Char} (solid : next.isWhitespace = false)
    (ends : Ends (next :: rest)) {fuel : Nat} (enough : 3 * text.length ≤ fuel) :
    scanOnce hooks fuel limit (skipSpace (before ++ (text ++ (after ++ next :: rest)))) =
        .ok (value, after ++ next :: rest) ∧
      skipSpace (after ++ next :: rest) = next :: rest := by
  constructor
  · have skipped : skipSpace (before ++ (text ++ (after ++ next :: rest))) =
        text ++ (after ++ next :: rest) := by
      rw [textEq, List.cons_append, skipSpace_opens opens early]
    rw [skipped]
    exact reads fuel _ enough (ends_space late ends)
  · rw [skipSpace_of_space late, skipSpace_cons solid]

/-- The elements of an array begin with a value, its members with a name. -/
def Phrase.Begins (text : List Char) : Phrase φ → Prop
  | .value _ => ∃ char tail, text = char :: tail ∧ Opens char
  | .elements _ => ∃ space char tail, Space space ∧ text = space ++ char :: tail ∧ Opens char
  | .members _ => ∃ space tail, Space space ∧ text = space ++ '"' :: tail

theorem Spells.begins {phrase : Phrase φ} {text : List Char}
    (spelled : Spells hooks limit phrase text) : phrase.Begins text := by
  cases phrase with
  | value result => exact spelled.opens
  | elements items =>
      cases spelled with
      | lastElement early inner _ =>
          obtain ⟨char, tail, rfl, opens⟩ := inner.opens
          exact ⟨_, char, _, early, rfl, opens⟩
      | element early inner _ _ =>
          obtain ⟨char, tail, rfl, opens⟩ := inner.opens
          exact ⟨_, char, _, early, rfl, opens⟩
  | members pairs =>
      cases spelled with
      | lastMember early _ _ _ _ _ => exact ⟨_, _, early, rfl⟩
      | member early _ _ _ _ _ _ => exact ⟨_, _, early, rfl⟩

/-- The name of a member, its colon and the white space about it. -/
theorem scanMembers_name {before name middle : List Char} {points : List Point}
    (early : Space before) (units : UnitsText points name) (colon : Space middle)
    (fuel : Nat) (rest : List Char) :
    scanMembers hooks (fuel + 1) limit
        (before ++ '"' :: (name ++ '"' :: (middle ++ ':' :: rest))) =
      (scanOnce hooks fuel limit (skipSpace rest)).andThen fun item rest =>
        match skipSpace rest with
        | ',' :: rest => (scanMembers hooks fuel limit rest).andThen fun members rest =>
            .ok ((joinPairs points, item) :: members, rest)
        | '}' :: rest => .ok ([(joinPairs points, item)], rest)
        | _ => .error (.decode .expectingComma) := by
  have quoted : skipSpace (before ++ '"' :: (name ++ '"' :: (middle ++ ':' :: rest))) =
      '"' :: (name ++ '"' :: (middle ++ ':' :: rest)) := by
    rw [skipSpace_of_space early, skipSpace_cons rfl]
  have gap : skipSpace (middle ++ ':' :: rest) = ':' :: rest := by
    rw [skipSpace_of_space colon, skipSpace_cons rfl]
  conv_lhs => unfold scanMembers
  simp only [quoted, scanString_spelled units, Scan.andThen_ok, gap]

/-- A scalar is read wherever it stands. -/
theorem reads_scalar {value : Value φ} {text : List Char}
    (opens : ∃ char tail, text = char :: tail ∧ char ≠ '"' ∧ char ≠ '{' ∧ char ≠ '[')
    (scanned : ∀ rest, Ends rest → scanScalar hooks (text ++ rest) = .ok (value, rest)) :
    (Phrase.value value).Reads hooks limit text := by
  intro fuel rest enough ends
  obtain ⟨char, tail, rfl, quote, brace, bracket⟩ := opens
  rw [List.length_cons] at enough
  match fuel, enough with
  | 0, enough => omega
  | fuel + 1, _ =>
      rw [List.cons_append, scanOnce_scalar quote brace bracket, ← List.cons_append]
      exact scanned rest ends

/-- The reader takes what is spelled. -/
theorem Spells.reads {phrase : Phrase φ} {text : List Char}
    (spelled : Spells hooks limit phrase text) : phrase.Reads hooks limit text := by
  induction spelled with
  | literal listed =>
      apply reads_scalar _ fun rest _ => scanScalar_literal listed
      simp only [literals, List.mem_cons, Prod.mk.injEq, List.not_mem_nil, or_false] at listed
      rcases listed with ⟨rfl, -⟩ | ⟨rfl, -⟩ | ⟨rfl, -⟩ <;> exact ⟨_, _, rfl, by decide⟩
  | number scanned read =>
      apply reads_scalar _ fun rest ends => scanScalar_number ends scanned read
      obtain ⟨char, tail, same, opens⟩ := scanNumber_head scanned
      refine ⟨char, tail, same, ?_, ?_, ?_⟩ <;> rintro rfl <;> simp at opens
  | @constant _ constant value read =>
      apply reads_scalar _ fun rest _ => scanScalar_constant read
      cases constant <;> exact ⟨_, _, rfl, by decide⟩
  | @string _ points text units =>
      intro fuel rest enough _
      match fuel, enough with
      | 0, enough => simp at enough
      | fuel + 1, _ =>
          rw [List.cons_append, List.append_assoc, scanOnce_quote]
          rw [show text ++ (['"'] ++ rest) = text ++ '"' :: rest from rfl, scanString_spelled units]
          rfl
  | @emptyArray _ space blank =>
      intro fuel rest enough _
      match fuel, enough with
      | 0, enough | 1, enough => simp at enough; try omega
      | fuel + 2, _ =>
          have closes : skipSpace (space ++ [']'] ++ rest) = ']' :: rest := by
            rw [List.append_assoc, skipSpace_of_space blank]
            exact skipSpace_cons rfl _
          rw [List.cons_append, scanOnce_bracket, scanArray_close closes]
  | @array _ items text elements ih =>
      intro fuel rest enough _
      rw [List.length_cons] at enough
      match fuel, enough with
      | 0, enough | 1, enough => omega
      | fuel + 2, _ =>
          obtain ⟨space, char, tail, blank, textEq, opens⟩ := elements.begins
          have starts : skipSpace (text ++ rest) = char :: (tail ++ rest) := by
            rw [textEq, List.append_assoc, List.cons_append, skipSpace_opens opens blank]
          rw [List.cons_append, scanOnce_bracket, scanArray_open starts opens.not_bracket,
            ih fuel rest (by omega)]
          rfl
  | @emptyObject _ value space blank read =>
      intro fuel rest enough _
      match fuel, enough with
      | 0, enough | 1, enough => simp at enough; try omega
      | fuel + 2, _ =>
          have closes : skipSpace (space ++ ['}'] ++ rest) = '}' :: rest := by
            rw [List.append_assoc, skipSpace_of_space blank]
            exact skipSpace_cons rfl _
          rw [List.cons_append, scanOnce_brace, scanObject_close closes, read]
          rfl
  | @object _ members value text spelled read ih =>
      intro fuel rest enough _
      rw [List.length_cons] at enough
      match fuel, enough with
      | 0, enough | 1, enough => omega
      | fuel + 2, _ =>
          obtain ⟨space, tail, blank, textEq⟩ := spelled.begins
          have starts : skipSpace (text ++ rest) = '"' :: (tail ++ rest) := by
            rw [textEq, List.append_assoc, List.cons_append, skipSpace_of_space blank,
              skipSpace_cons rfl]
          rw [List.cons_append, scanOnce_brace, scanObject_open starts, ih fuel rest (by omega)]
          simp only [Scan.andThen_ok, read]
          rfl
  | @lastElement _ item before text after early spelled late ih =>
      intro fuel rest enough
      simp only [List.length_append, List.length_cons] at enough
      match fuel, enough with
      | 0, enough => omega
      | fuel + 1, _ =>
          obtain ⟨char, tail, textEq, opens⟩ := spelled.opens
          obtain ⟨read, closes⟩ := Phrase.Reads.item ih textEq opens early late
            (show (']' : Char).isWhitespace = false from rfl) (ends_cons rfl (by simp) rest)
            (show 3 * text.length ≤ fuel by omega)
          simp only [List.append_assoc, List.singleton_append, scanElements_step, read,
            Scan.andThen_ok, closes]
  | @element _ item items before text after tail early spelled late _ ih ihRest =>
      intro fuel rest enough
      simp only [List.length_append, List.length_cons] at enough
      match fuel, enough with
      | 0, enough => omega
      | fuel + 1, _ =>
          obtain ⟨char, cut, textEq, opens⟩ := spelled.opens
          obtain ⟨read, closes⟩ := Phrase.Reads.item ih textEq opens early late
            (show (',' : Char).isWhitespace = false from rfl)
            (ends_cons rfl (by simp) (tail ++ rest)) (show 3 * text.length ≤ fuel by omega)
          simp only [List.append_assoc, List.cons_append, scanElements_step, read,
            Scan.andThen_ok, closes, ihRest fuel rest (by omega)]
  | @lastMember _ points item before name middle space text after early units colon gap spelled late
      ih =>
      intro fuel rest enough
      simp only [List.length_append, List.length_cons] at enough
      match fuel, enough with
      | 0, enough => omega
      | fuel + 1, _ =>
          obtain ⟨char, cut, textEq, opens⟩ := spelled.opens
          obtain ⟨read, closes⟩ := Phrase.Reads.item ih textEq opens gap late
            (show ('}' : Char).isWhitespace = false from rfl) (ends_cons rfl (by simp) rest)
            (show 3 * text.length ≤ fuel by omega)
          simp only [List.append_assoc, List.cons_append, List.nil_append,
            scanMembers_name early units colon, read, Scan.andThen_ok, closes]
  | @member _ points item members before name middle space text after tail early units colon gap
      spelled late _ ih ihRest =>
      intro fuel rest enough
      simp only [List.length_append, List.length_cons] at enough
      match fuel, enough with
      | 0, enough => omega
      | fuel + 1, _ =>
          obtain ⟨char, cut, textEq, opens⟩ := spelled.opens
          obtain ⟨read, closes⟩ := Phrase.Reads.item ih textEq opens gap late
            (show (',' : Char).isWhitespace = false from rfl)
            (ends_cons rfl (by simp) (tail ++ rest)) (show 3 * text.length ≤ fuel by omega)
          simp only [List.append_assoc, List.cons_append, scanMembers_name early units colon, read,
            Scan.andThen_ok, closes, ihRest fuel rest (by omega)]

/-- A text that spells a value between white space is read as that value. -/
theorem Spells.loads {value : Value φ} {before text after : List Char}
    (spelled : Spells hooks limit (.value value) text) (early : Space before) (late : Space after) :
    loads hooks limit (before ++ text ++ after) = .ok value := by
  obtain ⟨char, tail, textEq, opens⟩ := spelled.opens
  have starts : skipSpace (before ++ text ++ after) = text ++ after := by
    rw [textEq, List.append_assoc, List.cons_append, skipSpace_opens opens early]
  have ends : Ends after := by
    rw [← List.append_nil after]
    exact ends_space late ends_nil
  have blank : skipSpace after = [] := by
    rw [← List.append_nil after, skipSpace_of_space late]
    rfl
  have read := spelled.reads (3 * (before ++ text ++ after).length) after
    (by simp only [List.length_append]; omega) ends
  rw [Json.loads, starts, read]
  simp only [blank]

/-- What stands behind the value is too much. -/
theorem Spells.extraData {value : Value φ} {text rest : List Char}
    (spelled : Spells hooks limit (.value value) text) (ends : Ends rest)
    (more : skipSpace rest ≠ []) :
    Json.loads hooks limit (text ++ rest) = .error (.decode .extraData) := by
  obtain ⟨char, tail, textEq, opens⟩ := spelled.opens
  have starts : skipSpace (text ++ rest) = text ++ rest := by
    rw [textEq, List.cons_append, skipSpace_cons opens.solid]
  have read := spelled.reads (3 * (text ++ rest).length) rest
    (by simp only [List.length_append]; omega) ends
  rw [Json.loads, starts, read]
  simp only

/-! ### What is read is spelled -/

theorem findWord_split {α : Type} {words : List (List Char × α)} {text rest : List Char} {value : α}
    (found : findWord words text = some (value, rest)) :
    ∃ word, (word, value) ∈ words ∧ text = word ++ rest := by
  obtain ⟨⟨word, listed⟩, member, dropped⟩ := List.exists_of_findSome?_eq_some found
  obtain ⟨tail, taken, same⟩ := Option.map_eq_some_iff.mp dropped
  obtain ⟨rfl, rfl⟩ := Prod.mk.inj same
  obtain ⟨start, split, equal⟩ := List.dropPrefix?_eq_some_iff.mp taken
  rw [beq_iff_eq] at equal
  exact ⟨word, member, by rw [split, equal]⟩

theorem scanScalar_spelled {text rest : List Char} {value : Value φ}
    (scanned : scanScalar hooks text = .ok (value, rest)) (ends : Ends rest) :
    ∃ part, text = part ++ rest ∧ Spells hooks limit (.value value) part := by
  unfold scanScalar at scanned
  split at scanned
  · rename_i found
    obtain ⟨rfl, rfl⟩ := Prod.mk.inj (Except.ok.inj scanned)
    obtain ⟨word, listed, split⟩ := findWord_split found
    exact ⟨word, split, .literal listed⟩
  · split at scanned
    · rename_i number tail found
      cases read : (number.value hooks.digits : Except Fault (Value φ)) with
      | error fault => simp [read, Except.map] at scanned
      | ok result =>
          rw [read] at scanned
          obtain ⟨rfl, rfl⟩ := Prod.mk.inj (Except.ok.inj scanned)
          exact ⟨number.text, scanNumber_split found, .number (scanNumber_alone ends found) read⟩
    · split at scanned
      · rename_i constant tail found
        cases read : hooks.constant constant with
        | error fault => simp [read, Except.map] at scanned
        | ok result =>
            rw [read] at scanned
            obtain ⟨rfl, rfl⟩ := Prod.mk.inj (Except.ok.inj scanned)
            obtain ⟨word, listed, split⟩ := findWord_split found
            simp only [constants, List.map_cons, List.map_nil, List.mem_cons, Prod.mk.injEq,
              List.not_mem_nil, or_false] at listed
            rcases listed with ⟨rfl, rfl⟩ | ⟨rfl, rfl⟩ | ⟨rfl, rfl⟩ <;>
              exact ⟨_, split, .constant read⟩
      · contradiction

theorem scanString_split {text rest : List Char} {name : List Point}
    (scanned : scanString text = .ok (name, rest)) :
    ∃ points part, text = part ++ '"' :: rest ∧ UnitsText points part ∧ name = joinPairs points := by
  obtain ⟨points, tail, units, same⟩ := Scan.andThen_eq_ok.mp scanned
  obtain ⟨rfl, rfl⟩ := Prod.mk.inj (Except.ok.inj same)
  obtain ⟨part, split, spelled⟩ := scanUnits_spelled units
  exact ⟨points, part, split, spelled, rfl⟩

/-- White space and a character that ends every number. -/
theorem ends_of_skipSpace {text rest : List Char} {char : Char} (skipped : skipSpace text = char :: rest)
    (ends : Ends (char :: rest)) : Ends text := by
  obtain ⟨space, blank, split⟩ := skipSpace_split text
  rw [split, skipped]
  exact ends_space blank ends

/-- Each part of the reader takes what is spelled. -/
structure Reader.Sound (hooks : Hooks φ) (fuel : Nat) : Prop where
  once : ∀ limit text value rest, scanOnce hooks fuel limit text = .ok (value, rest) → Ends rest →
    ∃ part, text = part ++ rest ∧ Spells hooks limit (.value value) part
  array : ∀ limit text value rest, scanArray hooks fuel limit text = .ok (value, rest) →
    ∃ part, text = part ++ rest ∧ Spells hooks (limit + 1) (.value value) ('[' :: part)
  elements : ∀ limit text items rest, scanElements hooks fuel limit text = .ok (items, rest) →
    ∃ part, text = part ++ rest ∧ Spells hooks limit (.elements items) part
  object : ∀ limit text value rest, scanObject hooks fuel limit text = .ok (value, rest) →
    ∃ part, text = part ++ rest ∧ Spells hooks (limit + 1) (.value value) ('{' :: part)
  members : ∀ limit text members rest, scanMembers hooks fuel limit text = .ok (members, rest) →
    ∃ part, text = part ++ rest ∧ Spells hooks limit (.members members) part

theorem reader_sound_zero : Reader.Sound hooks 0 where
  once := fun _ _ _ _ scanned => by simp [scanOnce] at scanned
  array := fun _ _ _ _ scanned => by simp [scanArray] at scanned
  elements := fun _ _ _ _ scanned => by simp [scanElements] at scanned
  object := fun _ _ _ _ scanned => by simp [scanObject] at scanned
  members := fun _ _ _ _ scanned => by simp [scanMembers] at scanned

namespace Reader.Sound

variable {fuel : Nat} (sound : Reader.Sound hooks fuel)
include sound

theorem stepOnce {text rest : List Char} {value : Value φ}
    (scanned : scanOnce hooks (fuel + 1) limit text = .ok (value, rest)) (ends : Ends rest) :
    ∃ part, text = part ++ rest ∧ Spells hooks limit (.value value) part := by
  cases text with
  | nil => simp [scanOnce] at scanned
  | cons char text =>
      by_cases quote : char = '"'
      · subst quote
        rw [scanOnce_quote] at scanned
        obtain ⟨name, tail, string, same⟩ := Scan.andThen_eq_ok.mp scanned
        obtain ⟨rfl, rfl⟩ := Prod.mk.inj (Except.ok.inj same)
        obtain ⟨points, part, rfl, units, rfl⟩ := scanString_split string
        exact ⟨'"' :: (part ++ ['"']), by simp, .string units⟩
      by_cases brace : char = '{'
      · subst brace
        cases limit with
        | zero => simp [scanOnce] at scanned
        | succ limit =>
            rw [scanOnce_brace] at scanned
            obtain ⟨part, rfl, spelled⟩ := sound.object limit text value rest scanned
            exact ⟨_, rfl, spelled⟩
      by_cases bracket : char = '['
      · subst bracket
        cases limit with
        | zero => simp [scanOnce] at scanned
        | succ limit =>
            rw [scanOnce_bracket] at scanned
            obtain ⟨part, rfl, spelled⟩ := sound.array limit text value rest scanned
            exact ⟨_, rfl, spelled⟩
      rw [scanOnce_scalar quote brace bracket] at scanned
      exact scanScalar_spelled scanned ends

theorem stepArray {text rest : List Char} {value : Value φ}
    (scanned : scanArray hooks (fuel + 1) limit text = .ok (value, rest)) :
    ∃ part, text = part ++ rest ∧ Spells hooks (limit + 1) (.value value) ('[' :: part) := by
  unfold scanArray at scanned
  split at scanned
  · rename_i tail closes
    obtain ⟨rfl, rfl⟩ := Prod.mk.inj (Except.ok.inj scanned)
    obtain ⟨space, blank, split⟩ := skipSpace_split text
    exact ⟨space ++ [']'], by rw [split, closes, List.append_assoc]; rfl, .emptyArray blank⟩
  · obtain ⟨items, tail, elements, same⟩ := Scan.andThen_eq_ok.mp scanned
    obtain ⟨rfl, rfl⟩ := Prod.mk.inj (Except.ok.inj same)
    obtain ⟨part, split, spelled⟩ := sound.elements limit text items _ elements
    exact ⟨part, split, .array spelled⟩

theorem stepElements {text rest : List Char} {items : List (Value φ)}
    (scanned : scanElements hooks (fuel + 1) limit text = .ok (items, rest)) :
    ∃ part, text = part ++ rest ∧ Spells hooks limit (.elements items) part := by
  rw [scanElements_step] at scanned
  obtain ⟨item, after, once, next⟩ := Scan.andThen_eq_ok.mp scanned
  obtain ⟨before, early, split⟩ := skipSpace_split text
  obtain ⟨space, late, gap⟩ := skipSpace_split after
  split at next
  · rename_i tail comma
    obtain ⟨others, last, elements, same⟩ := Scan.andThen_eq_ok.mp next
    obtain ⟨rfl, rfl⟩ := Prod.mk.inj (Except.ok.inj same)
    have ends : Ends after := ends_of_skipSpace comma (ends_cons rfl (by simp) _)
    obtain ⟨first, firstSplit, spelled⟩ := sound.once limit _ item after once ends
    obtain ⟨others, otherSplit, rest⟩ := sound.elements limit tail _ _ elements
    refine ⟨_, ?_, .element early spelled late rest⟩
    rw [split, firstSplit, gap, comma, otherSplit]
    simp only [List.append_assoc, List.cons_append]
  · rename_i tail closes
    obtain ⟨rfl, rfl⟩ := Prod.mk.inj (Except.ok.inj next)
    have ends : Ends after := ends_of_skipSpace closes (ends_cons rfl (by simp) _)
    obtain ⟨first, firstSplit, spelled⟩ := sound.once limit _ item after once ends
    refine ⟨_, ?_, .lastElement early spelled late⟩
    rw [split, firstSplit, gap, closes]
    simp only [List.append_assoc, List.cons_append, List.nil_append]
  · contradiction

theorem stepObject {text rest : List Char} {value : Value φ}
    (scanned : scanObject hooks (fuel + 1) limit text = .ok (value, rest)) :
    ∃ part, text = part ++ rest ∧ Spells hooks (limit + 1) (.value value) ('{' :: part) := by
  unfold scanObject at scanned
  split at scanned
  · rename_i tail closes
    cases read : hooks.object [] with
    | error fault => simp [read, Except.map] at scanned
    | ok result =>
        rw [read] at scanned
        obtain ⟨rfl, rfl⟩ := Prod.mk.inj (Except.ok.inj scanned)
        obtain ⟨space, blank, split⟩ := skipSpace_split text
        exact ⟨space ++ ['}'], by rw [split, closes, List.append_assoc]; rfl,
          .emptyObject blank read⟩
  · obtain ⟨members, tail, inner, same⟩ := Scan.andThen_eq_ok.mp scanned
    cases read : hooks.object members with
    | error fault => simp [read, Except.map] at same
    | ok result =>
        rw [read] at same
        obtain ⟨rfl, rfl⟩ := Prod.mk.inj (Except.ok.inj same)
        obtain ⟨part, split, spelled⟩ := sound.members limit text members _ inner
        exact ⟨part, split, .object spelled read⟩

theorem stepMembers {text rest : List Char} {members : List (List Point × Value φ)}
    (scanned : scanMembers hooks (fuel + 1) limit text = .ok (members, rest)) :
    ∃ part, text = part ++ rest ∧ Spells hooks limit (.members members) part := by
  unfold scanMembers at scanned
  split at scanned
  · rename_i quoted opens
    obtain ⟨name, afterName, string, next⟩ := Scan.andThen_eq_ok.mp scanned
    obtain ⟨before, early, split⟩ := skipSpace_split text
    obtain ⟨points, part, rfl, units, rfl⟩ := scanString_split string
    split at next
    · rename_i afterColon colon
      obtain ⟨middle, blank, middleSplit⟩ := skipSpace_split afterName
      obtain ⟨gap, gapBlank, gapSplit⟩ := skipSpace_split afterColon
      obtain ⟨item, after, once, next⟩ := Scan.andThen_eq_ok.mp next
      obtain ⟨space, late, lateSplit⟩ := skipSpace_split after
      split at next
      · rename_i tail comma
        obtain ⟨others, last, inner, same⟩ := Scan.andThen_eq_ok.mp next
        obtain ⟨rfl, rfl⟩ := Prod.mk.inj (Except.ok.inj same)
        have ends : Ends after := ends_of_skipSpace comma (ends_cons rfl (by simp) _)
        obtain ⟨first, firstSplit, spelled⟩ := sound.once limit _ item after once ends
        obtain ⟨others, otherSplit, rest⟩ := sound.members limit tail _ _ inner
        refine ⟨_, ?_, .member early units blank gapBlank spelled late rest⟩
        rw [split, opens, middleSplit, colon, gapSplit, firstSplit, lateSplit, comma, otherSplit]
        simp only [List.append_assoc, List.cons_append]
      · rename_i tail closes
        obtain ⟨rfl, rfl⟩ := Prod.mk.inj (Except.ok.inj next)
        have ends : Ends after := ends_of_skipSpace closes (ends_cons rfl (by simp) _)
        obtain ⟨first, firstSplit, spelled⟩ := sound.once limit _ item after once ends
        refine ⟨_, ?_, .lastMember early units blank gapBlank spelled late⟩
        rw [split, opens, middleSplit, colon, gapSplit, firstSplit, lateSplit, closes]
        simp only [List.append_assoc, List.cons_append, List.nil_append]
      · contradiction
    · contradiction
  · contradiction

end Reader.Sound

theorem reader_sound (hooks : Hooks φ) (fuel : Nat) : Reader.Sound hooks fuel := by
  induction fuel with
  | zero => exact reader_sound_zero
  | succ fuel ih =>
      exact
        { once := fun _ _ _ _ scanned ends => ih.stepOnce scanned ends
          array := fun _ _ _ _ scanned => ih.stepArray scanned
          elements := fun _ _ _ _ scanned => ih.stepElements scanned
          object := fun _ _ _ _ scanned => ih.stepObject scanned
          members := fun _ _ _ _ scanned => ih.stepMembers scanned }

/-- A text is read as a value exactly when it spells the value between white
space. -/
theorem loads_iff {text : List Char} {value : Value φ} :
    loads hooks limit text = .ok value ↔
      ∃ before part after, text = before ++ part ++ after ∧ Space before ∧ Space after ∧
        Spells hooks limit (.value value) part := by
  constructor
  · intro read
    unfold Json.loads at read
    split at read
    · contradiction
    · rename_i result rest scanned
      split at read
      · rename_i blank
        obtain rfl := Except.ok.inj read
        obtain ⟨before, early, split⟩ := skipSpace_split text
        obtain ⟨after, late, restSplit⟩ := skipSpace_split rest
        rw [blank, List.append_nil] at restSplit
        have ends : Ends rest := by
          rw [restSplit, ← List.append_nil after]
          exact ends_space late ends_nil
        obtain ⟨part, partSplit, spelled⟩ :=
          (reader_sound hooks _).once limit _ _ rest scanned ends
        refine ⟨before, part, rest, ?_, early, ?_, spelled⟩
        · rw [List.append_assoc, ← partSplit]
          exact split
        · rw [restSplit]
          exact late
      · contradiction
  · rintro ⟨before, part, after, rfl, early, late, spelled⟩
    exact spelled.loads early late

end Reading

end Json
