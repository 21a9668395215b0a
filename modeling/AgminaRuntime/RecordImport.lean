import AgminaRuntime.ChargeRecords
import AgminaRuntime.ChatStream
import AgminaRuntime.PythonJson

/-!
# The import of charge records

`load_records` reads an array, an object with an array of records, or one
record a line.  It tells the last from the others by the first character and by
what the reader complains of.
-/

namespace AgminaRuntime

open Json (Value Floats)

/-- What `str.splitlines` takes for the end of a line. -/
def isLineBreak (char : Char) : Bool :=
  [0x0A, 0x0B, 0x0C, 0x0D, 0x1C, 0x1D, 0x1E, 0x85, 0x2028, 0x2029].contains char.toNat

/-- A carriage return and a line feed are one end. -/
def joinReturns : List Char → List Char
  | '\r' :: '\n' :: text => '\n' :: joinReturns text
  | char :: text => char :: joinReturns text
  | [] => []

/-- `str.splitlines()` -/
def splitlines (text : List Char) : List (List Char) :=
  match Lines.split isLineBreak (joinReturns text) with
  | (lines, []) => lines
  | (lines, last) => lines ++ [last]

section

variable {φ : Type}

/-- The records of an array, numbered. -/
def recordItems (index : Nat) : List (Value φ) → Except PyExc (List Charge)
  | [] => .ok []
  | value :: values => do
      let charge ← record value ("record " ++ toString index)
      let charges ← recordItems (index + 1) values
      pure (charge :: charges)

/-- The records of a value that was read at once. -/
def wholeImport : Value φ → Except PyExc (List Charge)
  | .arr items => recordItems 1 items
  | .obj members =>
      if Dict.hasExactly members ["records"] then
        match Dict.get members "records" with
        | .arr items => recordItems 1 items
        | _ => .error
            (.valueError "JSON import must be an array or an object with a records array")
      else .error (.valueError "JSON import must be an array or an object with a records array")
  | _ => .error (.valueError "JSON import must be an array")

variable [Floats φ]

variable (φ) in
/-- The records of the lines that are not blank, numbered by line. -/
def recordLines (number : Nat) : List (List Char) → Except PyExc (List Charge)
  | [] => .ok []
  | line :: lines =>
      if strip line = [] then recordLines (number + 1) lines
      else
        match (Json.loads defaultHooks recursionLimit line : Except Json.Fault (Value φ)) with
        | .error (.decode _) =>
            .error (.valueError ("line " ++ toString number ++ ": malformed JSON"))
        | .error fault => .error (jsonFault fault)
        | .ok value => do
            let charge ← record value ("line " ++ toString number)
            let charges ← recordLines (number + 1) lines
            pure (charge :: charges)

/-- What an import as a whole has to meet. -/
def checkRecords (charges : List Charge) : Except PyExc (List Charge) :=
  if charges = [] then .error (.valueError "Reconciliation import has no records")
  else if maxRecords < charges.length then
    .error (.valueError "Reconciliation import exceeds record bound")
  else if ¬ (charges.map Charge.job).Nodup then
    .error (.valueError "Reconciliation import contains duplicate job IDs")
  else .ok charges

variable (φ) in
/-- The records of a text that is not blank. -/
def importText (text : List Char) : Except PyExc (List Charge) :=
  let stripped := strip text
  match stripped with
  | '[' :: _ | '{' :: _ =>
      match (Json.loads defaultHooks recursionLimit stripped : Except Json.Fault (Value φ)) with
      | .ok value => wholeImport value
      | .error (.decode fault) =>
          if stripped.head? = some '{' ∧ fault = .extraData then recordLines φ 1 (splitlines text)
          else .error (.valueError "Malformed reconciliation JSON")
      | .error fault => .error (jsonFault fault)
  | _ => recordLines φ 1 (splitlines text)

variable (φ) in
/-- `load_records` of a file with the bytes. -/
def loadRecords (raw : List UInt8) : Except PyExc (List Charge) :=
  if maxImportBytes < raw.length then
    .error (.valueError "Reconciliation import exceeds byte bound")
  else
    match Utf8.feed [] raw with
    | some (text, []) =>
        if strip text = [] then .error (.valueError "Reconciliation import is empty")
        else importText φ text >>= checkRecords
    | _ => .error unicodeDecodeError

end

/-! ## Lines with something on them -/

/-- Nothing but white space. -/
def Blank (text : List Char) : Prop := ∀ char ∈ text, isSpace (Json.pointOf char) = true

/-- The lines that are not blank. -/
def shown (lines : List (List Char)) : List (List Char) := lines.filter (strip · ≠ [])

theorem blank_append {first second : List Char} (left : Blank first) (right : Blank second) :
    Blank (first ++ second) :=
  fun char member => (List.mem_append.mp member).elim (left char) (right char)

theorem blank_newline : Blank ['\n'] := by
  intro char member
  rw [List.mem_singleton.mp member]
  rfl

theorem blank_of_space {space : List Char} (blank : Json.Space space) : Blank space := by
  intro char member
  have white := blank char member
  simp only [Char.isWhitespace, Bool.or_eq_true, decide_eq_true_eq] at white
  rcases white with ((rfl | rfl) | rfl) | rfl <;> decide

theorem shown_append (first second : List (List Char)) :
    shown (first ++ second) = shown first ++ shown second := List.filter_append ..

theorem shown_blank {lines : List (List Char)} (blank : ∀ line ∈ lines, Blank line) :
    shown lines = [] := by
  apply List.filter_eq_nil_iff.mpr
  intro line listed
  simp [strip_eq_nil.mpr (blank line listed)]

/-- The lines of a blank text are blank. -/
theorem shown_pieces_blank {text : List Char} (blank : Blank text) :
    shown (Lines.pieces isLineBreak text) = [] :=
  shown_blank fun _ listed char member => blank char (Lines.mem_pieces listed char member)

/-- A pair of breaks encloses an empty line, which is not shown. -/
theorem shown_joinReturns (before text : List Char) :
    shown (Lines.pieces isLineBreak (before ++ joinReturns text)) =
      shown (Lines.pieces isLineBreak (before ++ text)) := by
  induction text using joinReturns.induct generalizing before with
  | case1 text ih =>
      have empty : shown (Lines.pieces isLineBreak []) = [] := rfl
      have rest := ih []
      simp only [List.nil_append] at rest
      rw [joinReturns, Lines.pieces_break before (by decide), Lines.pieces_break before (by decide),
        ← List.nil_append ('\n' :: text), Lines.pieces_break [] (by decide), shown_append,
        shown_append, shown_append, rest, empty, List.nil_append]
  | case2 char text _ ih =>
      have rest := ih (before ++ [char])
      rw [joinReturns]
      · simpa using rest
      · assumption
  | case3 => rfl

theorem shown_splitlines (text : List Char) :
    shown (splitlines text) = shown (Lines.pieces isLineBreak text) := by
  rw [← List.nil_append text, ← shown_joinReturns, List.nil_append, List.nil_append, splitlines,
    Lines.pieces]
  split
  · rename_i lines same
    rw [same, shown_append]
    exact (List.append_nil _).symm
  · rename_i lines last same
    rw [same]

section

variable {φ : Type}

/-- The members of a record. -/
structure RecordFields (members : Dict φ) (charge : Charge) : Prop where
  names : (∀ name ∈ members.map Prod.fst, name ∈ recordKeys) ∧
    ∀ key ∈ recordKeys, key ∈ members.map Prod.fst
  job : members.lookup jobIdKey = some (.str charge.job.points)
  actual : members.lookup actualKey = some (.int charge.actualMicrousd)
  evidence : members.lookup evidenceKey = some (.str charge.evidenceRef.points)

theorem record_ok {value : Value φ} {source : String} {charge : Charge} :
    record value source = .ok charge ↔
      ∃ members, value = .obj members ∧ RecordFields members charge ∧ charge.WellFormed := by
  constructor
  · intro passes
    have wellFormed := record_wellFormed passes
    unfold record at passes
    split at passes
    · rename_i members
      split at passes
      · rename_i names
        split at passes
        · rename_i job jobFound
          split at passes
          · contradiction
          split at passes
          · rename_i actual actualFound
            split at passes
            · contradiction
            rename_i nonnegative
            split at passes
            · rename_i evidence evidenceFound
              split at passes
              · contradiction
              obtain rfl := Except.ok.inj passes
              have counted : ((actual.toNat : Nat) : Int) = actual :=
                Int.toNat_of_nonneg (not_lt.mp nonnegative)
              exact ⟨members, rfl, ⟨names, jobFound, by rw [counted]; exact actualFound,
                evidenceFound⟩, wellFormed⟩
            · contradiction
          · contradiction
        · contradiction
      · contradiction
    · contradiction
  · rintro ⟨members, rfl, fields, wellFormed⟩
    have job : ¬ (charge.job.points.length = 0 ∨ 256 < charge.job.points.length) :=
      not_or.mpr ⟨wellFormed.job.1, not_lt.mpr wellFormed.job.2⟩
    have evidence : ¬ (charge.evidenceRef.points.length = 0 ∨
        1024 < charge.evidenceRef.points.length ∨
          (0x0A : CodePoint) ∈ charge.evidenceRef.points) :=
      not_or.mpr ⟨wellFormed.evidence.1,
        not_or.mpr ⟨not_lt.mpr wellFormed.evidence.2, wellFormed.line⟩⟩
    have nonnegative : ¬ ((charge.actualMicrousd : Nat) : Int) < 0 := by omega
    simp only [record, if_pos fields.names, fields.job, if_neg job, fields.actual,
      if_neg nonnegative, fields.evidence, if_neg evidence, Int.toNat_natCast]

/-- Where a record stands does not matter to whether it passes. -/
theorem record_source {value : Value φ} {source other : String} {charge : Charge}
    (passes : record value source = .ok charge) : record value other = .ok charge :=
  record_ok.mpr (record_ok.mp passes)

theorem recordItems_ok {values : List (Value φ)} {charges : List Charge} {index : Nat} :
    recordItems index values = .ok charges ↔
      List.Forall₂ (fun value charge => record value "" = .ok charge) values charges := by
  induction values generalizing index charges with
  | nil =>
      rw [List.forall₂_nil_left_iff, recordItems]
      exact ⟨fun same => (Except.ok.inj same).symm, fun same => same ▸ rfl⟩
  | cons value values ih =>
      rw [recordItems, List.forall₂_cons_left_iff, bind_ok_iff]
      constructor
      · rintro ⟨charge, first, rest⟩
        rw [bind_ok_iff] at rest
        obtain ⟨charges, later, same⟩ := rest
        exact ⟨charge, charges, record_source first, ih.mp later, (Except.ok.inj same).symm⟩
      · rintro ⟨charge, charges, first, later, rfl⟩
        refine ⟨charge, record_source first, ?_⟩
        rw [ih.mpr later]
        rfl

theorem wellFormed_of_records {α : Type} {items : List α} {charges : List Charge}
    {reads : α → Charge → Prop} (wellFormed : ∀ item charge, reads item charge → charge.WellFormed)
    (all : List.Forall₂ reads items charges) : ∀ charge ∈ charges, charge.WellFormed := by
  induction all with
  | nil => simp
  | cons head tail ih => exact List.forall_mem_cons.mpr ⟨wellFormed _ _ head, ih⟩

theorem recordItems_wellFormed {values : List (Value φ)} {charges : List Charge} {index : Nat}
    (read : recordItems index values = .ok charges) : ∀ charge ∈ charges, charge.WellFormed :=
  wellFormed_of_records (fun _ _ => record_wellFormed) (recordItems_ok.mp read)

theorem wholeImport_wellFormed {value : Value φ} {charges : List Charge}
    (read : wholeImport value = .ok charges) : ∀ charge ∈ charges, charge.WellFormed := by
  unfold wholeImport at read
  split at read
  · exact recordItems_wellFormed read
  · split at read
    · split at read
      · exact recordItems_wellFormed read
      · contradiction
    · contradiction
  · contradiction

variable [Floats φ]

variable (φ) in
/-- A line that is read as a record. -/
def ReadsRecord (line : List Char) (charge : Charge) : Prop :=
  ∃ value : Value φ, Json.loads defaultHooks recursionLimit line = .ok value ∧
    record value "" = .ok charge

theorem recordLines_ok {lines : List (List Char)} {charges : List Charge} {number : Nat} :
    recordLines φ number lines = .ok charges ↔
      List.Forall₂ (ReadsRecord φ) (shown lines) charges := by
  induction lines generalizing number charges with
  | nil =>
      rw [recordLines, show shown [] = [] from rfl, List.forall₂_nil_left_iff]
      exact ⟨fun same => (Except.ok.inj same).symm, fun same => same ▸ rfl⟩
  | cons line lines ih =>
      rw [recordLines]
      split
      · rename_i blank
        rw [ih, shown, shown, List.filter_cons_of_neg (by simpa using blank)]
      · rename_i visible
        rw [shown, List.filter_cons_of_pos (by simpa using visible), List.forall₂_cons_left_iff]
        split
        · rename_i fault failed
          constructor
          · intro read
            contradiction
          · rintro ⟨_, _, ⟨value, read, -⟩, -⟩
            rw [failed] at read
            contradiction
        · rename_i _ failed
          constructor
          · intro read
            contradiction
          · rintro ⟨_, _, ⟨value, read, -⟩, -⟩
            rw [failed] at read
            contradiction
        · rename_i value loaded
          rw [bind_ok_iff]
          constructor
          · rintro ⟨charge, first, rest⟩
            rw [bind_ok_iff] at rest
            obtain ⟨charges, later, same⟩ := rest
            exact ⟨charge, charges, ⟨value, loaded, record_source first⟩, ih.mp later,
              (Except.ok.inj same).symm⟩
          · rintro ⟨charge, charges, ⟨other, read, first⟩, later, rfl⟩
            obtain rfl : value = other := Except.ok.inj (loaded.symm.trans read)
            refine ⟨charge, record_source first, ?_⟩
            rw [ih.mpr later]
            rfl

/-! ## The three encodings -/

variable (φ) in
/-- A JSON text of a record, in any spelling. -/
def SpellsRecord (text : List Char) (charge : Charge) : Prop :=
  ∃ value : Value φ, Json.Spells defaultHooks recursionLimit (.value value) text ∧
    record value "" = .ok charge

variable (φ) in
/-- A JSON text of an array of records. -/
def ArrayImport (charges : List Charge) (text : List Char) : Prop :=
  ∃ before part after, ∃ values : List (Value φ), text = before ++ (part ++ after) ∧
    Blank before ∧ Blank after ∧
    Json.Spells defaultHooks recursionLimit (.value (.arr values)) part ∧
    List.Forall₂ (fun value charge => record value "" = .ok charge) values charges

variable (φ) in
/-- A JSON text of an object with such an array. -/
def ObjectImport (charges : List Charge) (text : List Char) : Prop :=
  ∃ before part after, ∃ values : List (Value φ), text = before ++ (part ++ after) ∧
    Blank before ∧ Blank after ∧
    Json.Spells defaultHooks recursionLimit (.value (.obj [(field "records", .arr values)])) part ∧
    List.Forall₂ (fun value charge => record value "" = .ok charge) values charges

/-- One text a line, among blank lines, with or without a line feed at the end. -/
inductive JsonLines : List (List Char) → List Char → Prop
  | blank {space : List Char} (blank : Blank space) : JsonLines [] space
  | skip {texts : List (List Char)} {space rest : List Char} (blank : Blank space)
      (lines : JsonLines texts rest) : JsonLines texts (space ++ '\n' :: rest)
  | last {before text after : List Char} (early : Json.Space before) (late : Json.Space after) :
      JsonLines [text] (before ++ (text ++ after))
  | line {texts : List (List Char)} {before text after rest : List Char}
      (early : Json.Space before) (late : Json.Space after) (lines : JsonLines texts rest) :
      JsonLines (text :: texts) (before ++ (text ++ after) ++ '\n' :: rest)

/-- Texts with a line feed behind each. -/
theorem jsonLines_texts (texts : List (List Char)) :
    JsonLines texts (texts.flatMap (· ++ ['\n'])) := by
  induction texts with
  | nil => exact .blank (by simp [Blank])
  | cons text texts ih =>
      have lines : JsonLines (text :: texts) ([] ++ (text ++ []) ++ '\n' :: _) :=
        .line Json.space_nil Json.space_nil ih
      simpa using lines

/-- The text has no end of a line of its own. -/
def Unbroken (text : List Char) : Prop := ∀ char ∈ text, isLineBreak char = false

/-! ### What stands around a value -/

theorem rdropWhile_append {α : Type} {p : α → Bool} {first second : List α}
    (keeps : second.rdropWhile p ≠ []) :
    (first ++ second).rdropWhile p = first ++ second.rdropWhile p := by
  unfold List.rdropWhile at keeps ⊢
  rw [List.reverse_append, List.dropWhile_append, if_neg (by simpa using keeps),
    List.reverse_append, List.reverse_reverse]

theorem rdropWhile_blank {α : Type} {p : α → Bool} {first second : List α}
    (drops : second.rdropWhile p = []) : (first ++ second).rdropWhile p = first.rdropWhile p := by
  unfold List.rdropWhile at drops ⊢
  rw [List.reverse_append, List.dropWhile_append, if_pos (by simpa using drops)]

/-- What begins and ends with a visible character keeps it. -/
theorem strip_around {before middle after : List Char} {first last : Char} (early : Blank before)
    (opens : isSpace (Json.pointOf first) = false) (closes : isSpace (Json.pointOf last) = false) :
    strip (before ++ (first :: (middle ++ [last]) ++ after)) =
      first :: (middle ++ [last]) ++ after.rdropWhile fun char => isSpace (Json.pointOf char) := by
  have led : (before ++ (first :: (middle ++ [last]) ++ after)).dropWhile
      (fun char => isSpace (Json.pointOf char)) = first :: (middle ++ [last]) ++ after := by
    rw [List.dropWhile_append, if_pos (by simpa using List.dropWhile_eq_nil_iff.mpr early),
      List.cons_append, List.dropWhile_cons_of_neg (by simp [opens])]
  rw [strip, led]
  by_cases gone : after.rdropWhile (fun char => isSpace (Json.pointOf char)) = []
  · rw [rdropWhile_blank gone, gone, List.append_nil, ← List.cons_append,
      List.rdropWhile_concat_neg _ _ _ (by simp [closes])]
  · rw [rdropWhile_append gone]

/-! ### Lines of records -/

theorem ends_of_break {char : Char} (ends : isLineBreak char = true) (rest : List Char) :
    Json.Ends (char :: rest) := by
  have solid : ∀ code ∈ [0x0A, 0x0B, 0x0C, 0x0D, 0x1C, 0x1D, 0x1E, 0x85, 0x2028, 0x2029],
      (Char.ofNat code).isDigit = false ∧ Char.ofNat code ∉ ['.', 'e', 'E', '+', '-'] := by decide
  have found := solid char.toNat (by simpa [isLineBreak] using ends)
  rw [Char.ofNat_toNat] at found
  exact Json.ends_cons found.1 found.2 rest

/-- The white space in front of a text, up to its line. -/
theorem shown_behind {before : List Char} (early : Json.Space before) (text : List Char) :
    ∃ left, Json.Space left ∧ Unbroken left ∧
      shown (Lines.pieces isLineBreak (before ++ text)) =
        shown (Lines.pieces isLineBreak (left ++ text)) := by
  have part : ∀ line ∈ Lines.pieces isLineBreak before, Json.Space line :=
    fun line listed char member => early char (Lines.mem_pieces listed char member)
  refine ⟨(Lines.split isLineBreak before).2,
    part _ (List.mem_append_right _ (List.mem_singleton_self _)), Lines.unbroken_last before, ?_⟩
  rw [Lines.pieces_append, shown_append, shown_blank, List.nil_append]
  exact fun line listed => blank_of_space (part line (List.mem_append_left _ listed))

theorem shown_visible {line : List Char} (visible : ¬ Blank line) : shown [line] = [line] := by
  apply List.filter_eq_self.mpr
  intro other listed
  rw [List.mem_singleton.mp listed]
  exact decide_eq_true (mt strip_eq_nil.mp visible)

theorem not_blank_append {text : List Char} (visible : ¬ Blank text) (left right : List Char) :
    ¬ Blank (left ++ (text ++ right)) :=
  fun blank => visible fun char member =>
    blank char (List.mem_append_right _ (List.mem_append_left _ member))

theorem unbroken_append {first second : List Char} (left : Unbroken first)
    (right : Unbroken second) : Unbroken (first ++ second) :=
  fun char member => (List.mem_append.mp member).elim (left char) (right char)

/-- A text is not cut by its line, if it has no break of its own. -/
theorem shown_line {before text after : List Char} (early : Json.Space before)
    (late : Json.Space after) (whole : Unbroken text) (visible : ¬ Blank text) :
    ∃ left right, Json.Space left ∧ Json.Space right ∧
      shown (Lines.pieces isLineBreak (before ++ (text ++ after))) = [left ++ (text ++ right)] := by
  obtain ⟨left, white, unbroken, same⟩ := shown_behind early (text ++ after)
  rw [same]
  have front := unbroken_append unbroken whole
  rcases Lines.first_line isLineBreak after with
    single | ⟨line, char, rest, rfl, short, ends⟩
  · refine ⟨left, after, white, late, ?_⟩
    rw [← List.append_assoc, Lines.pieces_unbroken (unbroken_append front single),
      List.append_assoc, shown_visible (not_blank_append visible left after)]
  · refine ⟨left, line, white, fun other member => late other (List.mem_append_left _ member), ?_⟩
    have blank : Blank rest := blank_of_space fun other member =>
      late other (List.mem_append_right _ (List.mem_cons_of_mem _ member))
    rw [← List.append_assoc, ← List.append_assoc, Lines.pieces_break _ ends, shown_append,
      Lines.pieces_unbroken (unbroken_append front short), shown_pieces_blank blank,
      List.append_nil, List.append_assoc, shown_visible (not_blank_append visible left line)]

/-- A text with a break is cut there. -/
theorem shown_cut {before front : List Char} {char : Char} (early : Json.Space before)
    (whole : Unbroken front) (ends : isLineBreak char = true) (visible : ¬ Blank front)
    (rest : List Char) :
    ∃ left, Json.Space left ∧
      left ++ front ∈ shown (Lines.pieces isLineBreak (before ++ (front ++ char :: rest))) := by
  obtain ⟨left, white, unbroken, same⟩ := shown_behind early (front ++ char :: rest)
  refine ⟨left, white, ?_⟩
  have seen := not_blank_append visible left []
  rw [List.append_nil] at seen
  rw [same, ← List.append_assoc, Lines.pieces_break _ ends, shown_append,
    Lines.pieces_unbroken (unbroken_append unbroken whole), shown_visible seen]
  exact List.mem_append_left _ (List.mem_singleton_self _)

/-! ### A record and its line -/

theorem skipSpace_record {text : List Char} (tail : List Char) {space : List Char}
    (white : Json.Space space) (same : text = '{' :: tail) :
    Json.skipSpace (space ++ text) = text := by
  rw [same]
  exact Json.skipSpace_opens (.inr (by simp)) white tail

/-- A record between white space is read. -/
theorem SpellsRecord.reads {text : List Char} {charge : Charge}
    (spelled : SpellsRecord φ text charge) {left right : List Char} (early : Json.Space left)
    (late : Json.Space right) : ReadsRecord φ (left ++ (text ++ right)) charge := by
  obtain ⟨value, spells, passes⟩ := spelled
  have loaded := spells.loads early late
  rw [List.append_assoc] at loaded
  exact ⟨value, loaded, passes⟩

theorem SpellsRecord.braces {text : List Char} {charge : Charge}
    (spelled : SpellsRecord φ text charge) : ∃ middle, text = '{' :: (middle ++ ['}']) := by
  obtain ⟨value, spells, passes⟩ := spelled
  obtain ⟨members, rfl, -⟩ := record_ok.mp passes
  exact spells.object_text defaultHooks_tidy

/-- The front of a record in front of a break is not read. -/
theorem SpellsRecord.not_reads {front rest space : List Char} {char : Char} {charge other : Charge}
    (spelled : SpellsRecord φ (front ++ char :: rest) charge) (ends : isLineBreak char = true)
    (white : Json.Space space) : ¬ ReadsRecord φ (space ++ front) other := by
  rintro ⟨value, loaded, -⟩
  obtain ⟨before, part, after, split, early, late, spells⟩ := Json.loads_iff.mp loaded
  obtain ⟨middle, braces⟩ := spelled.braces
  obtain ⟨whole, spellsWhole, -⟩ := spelled
  -- The front begins with the brace of the record.
  obtain ⟨tail, frontEq⟩ : ∃ tail, front = '{' :: tail := by
    cases front with
    | nil =>
        obtain rfl : char = '{' := (List.cons.inj braces).1
        contradiction
    | cons first tail => exact ⟨tail, by rw [(List.cons.inj braces).1]⟩
  obtain ⟨first, tail', partEq, opens⟩ := spells.opens
  have skipped : front = part ++ after := by
    rw [← skipSpace_record tail white frontEq, split, List.append_assoc, partEq, List.cons_append,
      Json.skipSpace_opens opens early]
  have text : front ++ char :: rest = part ++ (after ++ char :: rest) := by
    rw [skipped, List.append_assoc]
  have short := spells.reads (3 * (front ++ char :: rest).length) (after ++ char :: rest)
    (by rw [text]; simp only [List.length_append]; omega)
    (Json.ends_space late (ends_of_break ends rest))
  have long := spellsWhole.reads (3 * (front ++ char :: rest).length) []
    (by simp) Json.ends_nil
  rw [← text] at short
  rw [List.append_nil, short] at long
  have behind := (Prod.mk.inj (Except.ok.inj long)).2
  simp at behind

theorem visible_brace {text tail : List Char} (same : text = '{' :: tail) : ¬ Blank text := by
  intro blank
  have space := blank '{' (same ▸ List.mem_cons_self)
  contradiction

theorem pieces_rows (first second : List Char) :
    shown (Lines.pieces isLineBreak (first ++ '\n' :: second)) =
      shown (Lines.pieces isLineBreak first) ++ shown (Lines.pieces isLineBreak second) := by
  rw [Lines.pieces_break first (by decide), shown_append]

/-- Records without breaks are read line by line. -/
theorem JsonLines.reads {texts : List (List Char)} {text : List Char} (lines : JsonLines texts text)
    {charges : List Charge} (spelled : List.Forall₂ (SpellsRecord φ) texts charges)
    (whole : ∀ text ∈ texts, Unbroken text) :
    List.Forall₂ (ReadsRecord φ) (shown (Lines.pieces isLineBreak text)) charges := by
  induction lines generalizing charges with
  | blank blank =>
      rw [List.forall₂_nil_left_iff] at spelled
      rw [spelled, shown_pieces_blank blank]
      exact .nil
  | skip blank lines ih =>
      rw [pieces_rows, shown_pieces_blank blank]
      exact ih spelled whole
  | last early late =>
      obtain ⟨charge, charges, first, rest, rfl⟩ := List.forall₂_cons_left_iff.mp spelled
      obtain rfl := List.forall₂_nil_left_iff.mp rest
      obtain ⟨middle, braces⟩ := first.braces
      obtain ⟨left, right, leftWhite, rightWhite, row⟩ :=
        shown_line early late (whole _ List.mem_cons_self) (visible_brace braces)
      rw [row]
      exact .cons (first.reads leftWhite rightWhite) .nil
  | line early late lines ih =>
      obtain ⟨charge, charges, first, rest, rfl⟩ := List.forall₂_cons_left_iff.mp spelled
      obtain ⟨middle, braces⟩ := first.braces
      obtain ⟨left, right, leftWhite, rightWhite, row⟩ :=
        shown_line early late (whole _ List.mem_cons_self) (visible_brace braces)
      rw [pieces_rows, row]
      exact .cons (first.reads leftWhite rightWhite)
        (ih rest fun text member => whole text (List.mem_cons_of_mem _ member))

/-- A record with a break leaves a line with its front. -/
theorem JsonLines.cut {texts : List (List Char)} {text : List Char} (lines : JsonLines texts text)
    {front rest : List Char} {char : Char} (member : front ++ char :: rest ∈ texts)
    (whole : Unbroken front) (ends : isLineBreak char = true) (visible : ¬ Blank front) :
    ∃ left, Json.Space left ∧ left ++ front ∈ shown (Lines.pieces isLineBreak text) := by
  induction lines with
  | blank => contradiction
  | skip blank lines ih =>
      obtain ⟨left, white, listed⟩ := ih member
      rw [pieces_rows]
      exact ⟨left, white, List.mem_append_right _ listed⟩
  | last early late =>
      rw [List.mem_singleton] at member
      rw [← member, List.append_assoc, List.cons_append]
      exact shown_cut early whole ends visible _
  | line early late lines ih =>
      rw [pieces_rows]
      rcases List.mem_cons.mp member with same | later
      · rw [← same, List.append_assoc, List.cons_append]
        obtain ⟨left, white, listed⟩ := shown_cut early whole ends visible _
        exact ⟨left, white, List.mem_append_left _ listed⟩
      · obtain ⟨left, white, listed⟩ := ih later
        exact ⟨left, white, List.mem_append_right _ listed⟩

theorem exists_of_forall₂ {α β : Type} {related : α → β → Prop} {first : List α}
    {second : List β} (all : List.Forall₂ related first second) {item : α} (member : item ∈ first) :
    ∃ other ∈ second, related item other := by
  induction all with
  | nil => contradiction
  | cons head tail ih =>
      rcases List.mem_cons.mp member with rfl | later
      · exact ⟨_, List.mem_cons_self, head⟩
      · obtain ⟨other, listed, found⟩ := ih later
        exact ⟨other, List.mem_cons_of_mem _ listed, found⟩

/-- Only records without breaks are read line by line. -/
theorem JsonLines.unbroken {texts : List (List Char)} {text : List Char}
    (lines : JsonLines texts text) {charges others : List Charge}
    (spelled : List.Forall₂ (SpellsRecord φ) texts charges)
    (read : List.Forall₂ (ReadsRecord φ) (shown (Lines.pieces isLineBreak text)) others) :
    ∀ text ∈ texts, Unbroken text := by
  intro record member
  rcases Lines.first_line isLineBreak record with
    whole | ⟨front, char, rest, rfl, whole, ends⟩
  · exact whole
  · obtain ⟨charge, -, spells⟩ := exists_of_forall₂ spelled member
    obtain ⟨middle, braces⟩ := spells.braces
    have visible : ¬ Blank front := by
      cases front with
      | nil =>
          obtain rfl : char = '{' := (List.cons.inj braces).1
          exact absurd ends (by decide)
      | cons first tail =>
          exact visible_brace (congrArg (· :: tail) (List.cons.inj braces).1)
    obtain ⟨left, white, listed⟩ := lines.cut member whole ends visible
    obtain ⟨other, -, reads⟩ := exists_of_forall₂ read listed
    exact absurd reads (spells.not_reads ends white)

/-- In front of and behind the first record. -/
theorem JsonLines.first {text : List Char} {texts : List (List Char)} {whole : List Char}
    (lines : JsonLines (text :: texts) whole) :
    ∃ before rest, whole = before ++ (text ++ rest) ∧ Blank before ∧ Json.Ends rest ∧
      (texts = [] ∧ Blank rest ∨
        ∃ front tail, rest = front ++ tail ∧ Blank front ∧ JsonLines texts tail) := by
  generalize same : text :: texts = all at lines
  induction lines with
  | blank => contradiction
  | @skip _ space rest blank _ ih =>
      obtain ⟨before, tail, rfl, early, ends, behind⟩ := ih same
      refine ⟨space ++ (['\n'] ++ before), tail, by simp, ?_, ends, behind⟩
      exact blank_append blank (blank_append blank_newline early)
  | @last before _ after early late =>
      obtain ⟨rfl, rfl⟩ := List.cons.inj same
      refine ⟨before, after, rfl, blank_of_space early, ?_, .inl ⟨rfl, blank_of_space late⟩⟩
      rw [← List.append_nil after]
      exact Json.ends_space late Json.ends_nil
  | @line _ before _ after rest early late lines _ =>
      obtain ⟨rfl, rfl⟩ := List.cons.inj same
      exact ⟨before, after ++ '\n' :: rest, by simp, blank_of_space early,
        Json.ends_space late (ends_of_break (by decide) rest),
        .inr ⟨after ++ ['\n'], rest, by simp, blank_append (blank_of_space late) blank_newline,
          lines⟩⟩

/-- Any record shows. -/
theorem JsonLines.visible {texts : List (List Char)} {text : List Char}
    (lines : JsonLines texts text) (some : texts ≠ [])
    (braces : ∀ text ∈ texts, ∃ tail, text = '{' :: tail) : '{' ∈ text := by
  obtain ⟨first, rest, rfl⟩ := List.exists_cons_of_ne_nil some
  obtain ⟨before, behind, rfl, -⟩ := lines.first
  obtain ⟨tail, rfl⟩ := braces first List.mem_cons_self
  simp

theorem JsonLines.blank_of_nil {text : List Char} (lines : JsonLines [] text) : Blank text := by
  generalize same : ([] : List (List Char)) = none at lines
  induction lines with
  | blank blank => exact blank
  | @skip _ space rest blank _ ih =>
      rw [← List.singleton_append]
      exact blank_append blank (blank_append blank_newline (ih same))
  | last => contradiction
  | line => contradiction

/-! ### The text as a whole -/

theorem importText_open {text tail : List Char} {char : Char} (stripped : strip text = char :: tail)
    (opens : char = '[' ∨ char = '{') :
    importText φ text =
      match (Json.loads defaultHooks recursionLimit (strip text) :
          Except Json.Fault (Value φ)) with
      | .ok value => wholeImport value
      | .error (.decode fault) =>
          if char = '{' ∧ fault = .extraData then recordLines φ 1 (splitlines text)
          else .error (.valueError "Malformed reconciliation JSON")
      | .error fault => .error (jsonFault fault) := by
  rw [importText, stripped]
  rcases opens with rfl | rfl <;> simp

/-- What is one value between white space is read at once. -/
theorem importText_whole {before part after : List Char} {value : Value φ} {first last : Char}
    {middle : List Char} (early : Blank before) (late : Blank after)
    (spelled : Json.Spells defaultHooks recursionLimit (.value value) part)
    (same : part = first :: (middle ++ [last])) (opens : first = '[' ∨ first = '{')
    (closes : isSpace (Json.pointOf last) = false) :
    importText φ (before ++ (part ++ after)) = wholeImport value := by
  have visible : isSpace (Json.pointOf first) = false := by
    rcases opens with rfl | rfl <;> rfl
  have gone : after.rdropWhile (fun char => isSpace (Json.pointOf char)) = [] :=
    List.rdropWhile_eq_nil_iff.mpr late
  have stripped : strip (before ++ (part ++ after)) = part := by
    rw [same, strip_around early visible closes, gone, List.append_nil]
  have loaded := spelled.loads Json.space_nil Json.space_nil
  rw [List.nil_append, List.append_nil] at loaded
  rw [importText_open (stripped.trans same) opens, stripped, loaded]

theorem importText_array {charges : List Charge} {text : List Char}
    (array : ArrayImport φ charges text) : importText φ text = .ok charges := by
  obtain ⟨before, part, after, values, rfl, early, late, spelled, records⟩ := array
  obtain ⟨middle, same⟩ := spelled.array_text defaultHooks_tidy
  rw [importText_whole early late spelled same (.inl rfl) rfl]
  exact recordItems_ok.mpr records

theorem importText_object {charges : List Charge} {text : List Char}
    (object : ObjectImport φ charges text) : importText φ text = .ok charges := by
  obtain ⟨before, part, after, values, rfl, early, late, spelled, records⟩ := object
  obtain ⟨middle, same⟩ := spelled.object_text defaultHooks_tidy
  rw [importText_whole early late spelled same (.inr rfl) rfl]
  have exactly :
      Dict.hasExactly ([(field "records", .arr values)] : Dict φ) ["records"] = true := by
    simp [Dict.hasExactly, Dict.has]
  have found : Dict.get ([(field "records", .arr values)] : Dict φ) "records" = .arr values := by
    simp [Dict.get]
  rw [wholeImport, if_pos exactly, found]
  exact recordItems_ok.mpr records

/-- A single record is taken for an object with records. -/
theorem importText_single {text whole : List Char} {charge : Charge}
    (lines : JsonLines [text] whole) (spelled : SpellsRecord φ text charge)
    (charges : List Charge) : importText φ whole ≠ .ok charges := by
  obtain ⟨middle, braces⟩ := spelled.braces
  obtain ⟨value, spells, passes⟩ := spelled
  obtain ⟨members, rfl, fields, -⟩ := record_ok.mp passes
  obtain ⟨before, rest, rfl, early, -, behind⟩ := lines.first
  have late : Blank rest := by
    rcases behind with ⟨-, blank⟩ | ⟨front, tail, rfl, blank, more⟩
    · exact blank
    · exact blank_append blank more.blank_of_nil
  have other : Dict.hasExactly members ["records"] ≠ true := by
    intro exactly
    have listed := within_of_hasExactly exactly jobIdKey
      (fields.names.2 jobIdKey (by simp [recordKeys]))
    exact absurd listed (by decide)
  rw [importText_whole early late spells braces (.inr rfl) rfl, wholeImport, if_neg other]
  simp

/-- Two records or more are read line by line. -/
theorem importText_lines {texts : List (List Char)} {whole : List Char} {charges : List Charge}
    (lines : JsonLines texts whole) (spelled : List.Forall₂ (SpellsRecord φ) texts charges)
    (several : 2 ≤ texts.length) :
    importText φ whole = recordLines φ 1 (splitlines whole) := by
  cases spelled with
  | nil => simp at several
  | @cons text charge texts charges first rest =>
      obtain ⟨middle, braces⟩ := first.braces
      obtain ⟨value, spells, -⟩ := first
      have some : texts ≠ [] := by
        rintro rfl
        simp at several
      have open_ : ∀ text ∈ texts, ∃ tail, text = '{' :: tail := by
        intro text member
        obtain ⟨charge, -, spells⟩ := exists_of_forall₂ rest member
        obtain ⟨middle, same⟩ := spells.braces
        exact ⟨_, same⟩
      obtain ⟨before, behind, rfl, early, ends, next⟩ := lines.first
      have brace : '{' ∈ behind := by
        rcases next with ⟨none, -⟩ | ⟨front, tail, rfl, -, more⟩
        · exact absurd none some
        · exact List.mem_append_right _ (more.visible some open_)
      -- What is kept behind the first record begins as it did and shows.
      obtain ⟨kept, keptEq⟩ : ∃ kept, kept =
          behind.rdropWhile (fun char => isSpace (Json.pointOf char)) := ⟨_, rfl⟩
      have visible : Json.skipSpace kept ≠ [] := by
        intro white
        have blank : kept.rdropWhile (fun char => isSpace (Json.pointOf char)) = [] :=
          List.rdropWhile_eq_nil_iff.mpr (blank_of_space (List.dropWhile_eq_nil_iff.mp white))
        rw [keptEq, List.rdropWhile_idempotent, List.rdropWhile_eq_nil_iff] at blank
        exact absurd (blank '{' brace) (by decide)
      have numbered : Json.Ends kept := by
        obtain ⟨dropped, same⟩ := keptEq ▸ List.rdropWhile_prefix
          (fun char => isSpace (Json.pointOf char)) behind
        cases kept with
        | nil => exact Json.ends_nil
        | cons char kept =>
            rw [← same] at ends
            exact ends
      have stripped : strip (before ++ (text ++ behind)) = text ++ kept := by
        rw [braces, strip_around early (by decide) (by decide), keptEq]
      have opened : strip (before ++ (text ++ behind)) =
          '{' :: (middle ++ ['}'] ++ kept) := by
        rw [stripped, braces, List.cons_append]
      rw [importText_open opened (.inr rfl), stripped, spells.extraData numbered visible]
      simp

/-! ## The encodings agree -/

theorem checkRecords_import (records : ImportRecords) :
    checkRecords records.charges = .ok records.charges := by
  rw [checkRecords, if_neg records.nonempty, if_neg (not_lt.mpr records.bounded),
    if_neg (not_not.mpr records.distinct)]

theorem checkRecords_ok {charges checked : List Charge}
    (passes : checkRecords charges = .ok checked) : checked = charges := by
  unfold checkRecords at passes
  repeat' split at passes
  all_goals first | contradiction | exact (Except.ok.inj passes).symm

theorem checkRecords_meets {charges checked : List Charge}
    (passes : checkRecords charges = .ok checked) :
    charges ≠ [] ∧ charges.length ≤ maxRecords ∧ (charges.map Charge.job).Nodup := by
  unfold checkRecords at passes
  split at passes
  · contradiction
  split at passes
  · contradiction
  split at passes
  · contradiction
  rename_i nonempty bounded distinct
  exact ⟨nonempty, not_lt.mp bounded, not_not.mp distinct⟩

theorem recordLines_wellFormed {lines : List (List Char)} {charges : List Charge} {number : Nat}
    (read : recordLines φ number lines = .ok charges) : ∀ charge ∈ charges, charge.WellFormed := by
  apply wellFormed_of_records _ (recordLines_ok.mp read)
  rintro line charge ⟨value, -, passes⟩
  exact record_wellFormed passes

theorem importText_wellFormed {text : List Char} {charges : List Charge}
    (read : importText φ text = .ok charges) : ∀ charge ∈ charges, charge.WellFormed := by
  unfold importText at read
  dsimp only at read
  split at read
  · split at read
    · exact wholeImport_wellFormed read
    · split at read
      · exact recordLines_wellFormed read
      · contradiction
    · contradiction
  · split at read
    · exact wholeImport_wellFormed read
    · split at read
      · exact recordLines_wellFormed read
      · contradiction
    · contradiction
  · exact recordLines_wellFormed read

/-- Whatever is loaded is an import. -/
theorem loadRecords_import {raw : List UInt8} {charges : List Charge}
    (loaded : loadRecords φ raw = .ok charges) :
    ∃ records : ImportRecords, records.charges = charges := by
  unfold loadRecords at loaded
  split at loaded
  · contradiction
  split at loaded
  · rename_i text _
    split at loaded
    · contradiction
    obtain ⟨imported, read, passes⟩ := bind_ok_iff.mp loaded
    obtain rfl := checkRecords_ok passes
    obtain ⟨nonempty, bounded, distinct⟩ := checkRecords_meets passes
    exact ⟨⟨charges, importText_wellFormed read, nonempty, bounded, distinct⟩, rfl⟩
  · contradiction

/-- A text within the bound that is not blank is imported. -/
theorem loadRecords_text {text : List Char} (within : (Utf8.encode text).length ≤ maxImportBytes)
    (visible : ¬ Blank text) :
    loadRecords φ (Utf8.encode text) = importText φ text >>= checkRecords := by
  rw [loadRecords, if_neg (not_lt.mpr within), Utf8.feed_encode]
  simp only
  rw [if_neg (mt strip_eq_nil.mp visible)]

theorem loadRecords_iff {text : List Char} (within : (Utf8.encode text).length ≤ maxImportBytes)
    (visible : ¬ Blank text) (records : ImportRecords) :
    loadRecords φ (Utf8.encode text) = .ok records.charges ↔
      importText φ text = .ok records.charges := by
  rw [loadRecords_text within visible, bind_ok_iff]
  constructor
  · rintro ⟨charges, imported, passes⟩
    rwa [checkRecords_ok passes]
  · exact fun imported => ⟨_, imported, checkRecords_import records⟩

theorem ArrayImport.visible {charges : List Charge} {text : List Char}
    (array : ArrayImport φ charges text) : ¬ Blank text := by
  obtain ⟨before, part, after, values, rfl, -, -, spelled, -⟩ := array
  obtain ⟨middle, rfl⟩ := spelled.array_text defaultHooks_tidy
  intro blank
  exact absurd (blank '[' (by simp)) (by decide)

theorem ObjectImport.visible {charges : List Charge} {text : List Char}
    (object : ObjectImport φ charges text) : ¬ Blank text := by
  obtain ⟨before, part, after, values, rfl, -, -, spelled, -⟩ := object
  obtain ⟨middle, rfl⟩ := spelled.object_text defaultHooks_tidy
  intro blank
  exact absurd (blank '{' (by simp)) (by decide)

/-- The array and the object are read as the records; the lines are if and only
if there are two or more and no text of a record has a break of its own. -/
theorem import_encodings_agree (records : ImportRecords) {array object lines : List Char}
    {texts : List (List Char)} (inArray : ArrayImport φ records.charges array)
    (inObject : ObjectImport φ records.charges object) (inLines : JsonLines texts lines)
    (spelled : List.Forall₂ (SpellsRecord φ) texts records.charges)
    (arrayWithin : (Utf8.encode array).length ≤ maxImportBytes)
    (objectWithin : (Utf8.encode object).length ≤ maxImportBytes)
    (linesWithin : (Utf8.encode lines).length ≤ maxImportBytes) :
    loadRecords φ (Utf8.encode array) = .ok records.charges ∧
      loadRecords φ (Utf8.encode object) = .ok records.charges ∧
      (loadRecords φ (Utf8.encode lines) = .ok records.charges ↔
        2 ≤ records.charges.length ∧ ∀ text ∈ texts, Unbroken text) := by
  have open_ : ∀ text ∈ texts, ∃ tail, text = '{' :: tail := by
    intro text member
    obtain ⟨charge, -, spells⟩ := exists_of_forall₂ spelled member
    obtain ⟨middle, same⟩ := spells.braces
    exact ⟨_, same⟩
  have some : texts ≠ [] := by
    rintro rfl
    exact records.nonempty (List.forall₂_nil_left_iff.mp spelled)
  have linesVisible : ¬ Blank lines := by
    intro blank
    exact absurd (blank '{' (inLines.visible some open_)) (by decide)
  refine ⟨(loadRecords_iff arrayWithin inArray.visible records).mpr (importText_array inArray),
    (loadRecords_iff objectWithin inObject.visible records).mpr (importText_object inObject), ?_⟩
  rw [loadRecords_iff linesWithin linesVisible, ← spelled.length_eq]
  constructor
  · intro imported
    have several : 2 ≤ texts.length := by
      by_contra few
      obtain ⟨text, rfl⟩ : ∃ text, texts = [text] := by
        apply List.length_eq_one_iff.mp
        have := List.length_pos_of_ne_nil some
        omega
      obtain ⟨charge, -, spells⟩ := exists_of_forall₂ spelled List.mem_cons_self
      exact importText_single inLines spells _ imported
    rw [importText_lines inLines spelled several, recordLines_ok, shown_splitlines] at imported
    exact ⟨several, inLines.unbroken spelled imported⟩
  · rintro ⟨several, whole⟩
    rw [importText_lines inLines spelled several, recordLines_ok, shown_splitlines]
    exact inLines.reads spelled whole

end

namespace Sample

/-- A charge for a job, and its members. -/
def exported (job : String) (actual : Nat) : Charge :=
  ⟨PyStr.ofString job, actual, PyStr.ofString ("export:" ++ job)⟩

def exportedMembers (job : String) (actual : Nat) : Dict Json.Verbatim :=
  [(jobIdKey, .str (field job)), (actualKey, .int actual),
    (evidenceKey, .str (field ("export:" ++ job)))]

def exportedCharges : ImportRecords where
  charges := [exported "j1" 3, exported "j2" 0]
  wellFormed := by
    intro charge member
    simp only [List.mem_cons, List.not_mem_nil, or_false] at member
    rcases member with rfl | rfl <;> exact ⟨by decide, by decide, by decide⟩
  nonempty := by simp
  bounded := by decide
  distinct := by decide

def exportedValues : List (Value Json.Verbatim) :=
  [.obj (exportedMembers "j1" 3), .obj (exportedMembers "j2" 0)]

def exportedTexts : List (List Char) := exportedValues.map (Json.write Json.asciiInk)

theorem record_exported :
    List.Forall₂ (fun value charge => record value "" = .ok charge) exportedValues
      exportedCharges.charges := by
  have passes : ∀ job actual, (exported job actual).WellFormed →
      record (.obj (exportedMembers job actual)) "" = .ok (exported job actual) := by
    intro job actual wellFormed
    have names : (exportedMembers job actual).map Prod.fst = recordKeys := rfl
    refine record_ok.mpr ⟨_, rfl, ⟨⟨?_, ?_⟩, rfl, rfl, rfl⟩, wellFormed⟩
    · rw [names]
      exact fun _ listed => listed
    · rw [names]
      exact fun _ listed => listed
  exact .cons (passes "j1" 3 (exportedCharges.wellFormed _ (by simp [exportedCharges])))
    (.cons (passes "j2" 0 (exportedCharges.wellFormed _ (by simp [exportedCharges]))) .nil)

theorem clean_exported {value : Value Json.Verbatim} (member : value ∈ exportedValues) :
    Json.Clean 1 value := by
  have clean : ∀ job actual, (Nat.toDigits 10 actual).length ≤ Json.maxDigits →
      Json.Clean 1 (.obj (exportedMembers job actual)) := by
    intro job actual short
    apply Json.Clean.obj (fun _ => by decide)
    · show recordKeys.Nodup
      decide
    · intro member listed
      simp only [exportedMembers, List.mem_cons, List.not_mem_nil, or_false] at listed
      rcases listed with rfl | rfl | rfl <;> exact joined_pointOf _
    · intro member listed
      simp only [exportedMembers, List.mem_cons, List.not_mem_nil, or_false] at listed
      rcases listed with rfl | rfl | rfl
      · exact .str (joined_field _)
      · exact .int (by simpa using short)
      · exact .str (joined_field _)
  simp only [exportedValues, List.mem_cons, List.not_mem_nil, or_false] at member
  rcases member with rfl | rfl
  · exact clean _ _ (by decide)
  · exact clean _ _ (by decide)

theorem clean_exportedValues : Json.Clean 2 (.arr exportedValues) :=
  .arr (fun _ => by decide) fun _ member => clean_exported member

theorem clean_exportedObject :
    Json.Clean 3 (.obj [(field "records", .arr exportedValues)] : Value Json.Verbatim) := by
  apply Json.Clean.obj (fun _ => by decide)
  · simp
  · simp [joined_field]
  · simpa using clean_exportedValues

theorem spells_exported {value : Value Json.Verbatim} {depth : Nat} (clean : Json.Clean depth value)
    (shallow : depth + 1 ≤ recursionLimit) :
    Json.Spells defaultHooks recursionLimit (.value value) (Json.write Json.asciiInk value) :=
  (clean.spells defaultHooks_exact).mono shallow

end Sample

/-- Two records in all three encodings. -/
theorem import_encodings_agree_pair :
    let array := Json.write Json.asciiInk (.arr Sample.exportedValues)
    let object := Json.write Json.asciiInk (.obj [(field "records", .arr Sample.exportedValues)])
    let lines := Sample.exportedTexts.flatMap (· ++ ['\n'])
    loadRecords Json.Verbatim (Utf8.encode array) = .ok Sample.exportedCharges.charges ∧
      loadRecords Json.Verbatim (Utf8.encode object) = .ok Sample.exportedCharges.charges ∧
      loadRecords Json.Verbatim (Utf8.encode lines) = .ok Sample.exportedCharges.charges := by
  intro array object lines
  have inArray : ArrayImport Json.Verbatim Sample.exportedCharges.charges array :=
    ⟨[], array, [], _, by simp, by simp [Blank], by simp [Blank],
      Sample.spells_exported Sample.clean_exportedValues (by decide), Sample.record_exported⟩
  have inObject : ObjectImport Json.Verbatim Sample.exportedCharges.charges object :=
    ⟨[], object, [], _, by simp, by simp [Blank], by simp [Blank],
      Sample.spells_exported Sample.clean_exportedObject (by decide), Sample.record_exported⟩
  have inLines : JsonLines Sample.exportedTexts lines := jsonLines_texts _
  have spelled : List.Forall₂ (SpellsRecord Json.Verbatim) Sample.exportedTexts
      Sample.exportedCharges.charges := by
    rw [Sample.exportedTexts, List.forall₂_map_left_iff]
    have both := (List.forall₂_and_left _ _).mpr
      ⟨fun _ => Sample.clean_exported, Sample.record_exported⟩
    exact both.imp fun value charge found =>
      ⟨value, Sample.spells_exported found.1 (by decide), found.2⟩
  have agree := import_encodings_agree Sample.exportedCharges inArray inObject inLines spelled
    (by decide +kernel) (by decide +kernel) (by decide +kernel)
  have whole : (Sample.exportedTexts.all fun text =>
      text.all fun char => !isLineBreak char) = true := by decide +kernel
  simp only [List.all_eq_true, Bool.not_eq_true'] at whole
  exact ⟨agree.1, agree.2.1, agree.2.2.mpr ⟨by decide, whole⟩⟩

end AgminaRuntime
