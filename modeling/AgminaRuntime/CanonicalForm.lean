import AgminaRuntime.Campaign
import AgminaRuntime.StrictJson

/-!
# The canonical form

The canonical form of an accepted object is written and, within the byte bound,
accepted again as the same text.  The escapes of characters beyond ASCII make
it longer than the text it was read from: an object whose compact ASCII form
exceeds the bound is accepted once and refused ever after, and so is a job that
carries it.
-/

namespace AgminaRuntime

open Json (Value Floats LawfulFloats Clean compactSize Verbatim)

section

variable {φ : Type} [Floats φ]

/-- The canonical form of an object is accepted, and is its own canonical form. -/
def CanonicalStable (members : Dict φ) : Prop :=
  ∃ text, canonical (.obj members) = .ok text ∧
    ∃ again : Dict φ, strictJson (.ofChars text) maxJsonBytes = .ok again ∧
      canonical (.obj again) = .ok text

/-- What the reader makes of the canonical form of an object: the object in the
order of its names, if the text is within the bound. -/
theorem strictJson_canonical [LawfulFloats φ] {members : Dict φ}
    (clean : Clean maxNesting (.obj members)) :
    ∃ again : Dict φ, Json.sortKeys (.obj members) = .obj again ∧
      strictJson (.ofChars (Json.write Json.asciiInk (Json.sortKeys (.obj members)))) maxJsonBytes =
        if maxJsonBytes < compactSize (.obj members) then
          .error (.valueError "JSON object exceeds byte bound")
        else .ok again := by
  refine ⟨_, Json.sortKeys_obj members, ?_⟩
  have sorted := clean.sortKeys
  have size : encodedSize (Json.write Json.asciiInk (Json.sortKeys (.obj members))) =
      compactSize (.obj members) := by
    rw [encodedSize_ascii sorted.ascii, Json.length_write, clean.compactSize_sortKeys]
  rw [strictJson, PyStr.chars_ofChars]
  simp only [size]
  rw [Json.sortKeys_obj] at sorted ⊢
  rw [strictObject_write sorted]

theorem canonicalStable_iff [LawfulFloats φ] {members : Dict φ}
    (clean : Clean maxNesting (.obj members)) :
    CanonicalStable members ↔ compactSize (.obj members) ≤ maxJsonBytes := by
  obtain ⟨again, sorted, read⟩ := strictJson_canonical clean
  have written := canonical_of_clean clean
  constructor
  · rintro ⟨text, same, other, accepted, -⟩
    obtain rfl := Except.ok.inj (written.symm.trans same)
    rw [read] at accepted
    split at accepted
    · contradiction
    · omega
  · intro within
    rw [if_neg (not_lt.mpr within)] at read
    refine ⟨_, written, again, read, ?_⟩
    rw [← sorted, canonical_of_clean clean.sortKeys, clean.sortKeys_sortKeys]

/-! ## Jobs -/

variable (φ) in
/-- `Job.payload_object` -/
def payloadObject (value : PyStr) : Except PyExc String := do
  let members : Dict φ ← strictJson value maxJsonBytes
  let text ← canonical (.obj members)
  pure (String.ofList text)

variable (φ) in
/-- The validators of `Job` on typed fields and the payload text that came with
them: what the validators raise is reported as a `ValidationError`. -/
def JobFields.construct (fields : JobFields) (payload : PyStr) : Except PyExc Job :=
  match payloadObject φ payload with
  | .error _ => .error (.validationError "payload_json")
  | .ok text =>
      match { fields with payloadJson := text }.validate with
      | .error text => .error (.validationError text)
      | .ok job => .ok job

/-- What pydantic does with the typed fields of a job: it writes them as a JSON
text and reads them from one. -/
structure FieldCodec (τ : Type) where
  dump : JobFields → τ
  load : τ → Except PyExc JobFields

/-- Typed fields are read as they were written. -/
def FieldCodec.Lossless {τ : Type} (codec : FieldCodec τ) : Prop :=
  ∀ fields, codec.load (codec.dump fields) = .ok fields

variable {τ : Type} (codec : FieldCodec τ)

/-- `job.model_dump_json()` -/
def Job.modelDumpJson (job : Job) : τ := codec.dump job.toJobFields

variable (φ) in
/-- `Job.model_validate_json(text)` -/
def Job.modelValidateJson (text : τ) : Except PyExc Job := do
  let fields ← codec.load text
  fields.construct φ fields.payloadJson

variable (φ) in
/-- The job is read back from its own text, with the same fingerprint. -/
def Job.Survives (job : Job) : Prop :=
  ∃ again, Job.modelValidateJson φ codec (job.modelDumpJson codec) = .ok again ∧
    again = job ∧ again.fingerprint = job.fingerprint

theorem JobFields.construct_ok {fields : JobFields} {payload : PyStr} {job : Job}
    (built : fields.construct φ payload = .ok job) :
    ∃ text, payloadObject φ payload = .ok text ∧
      job.toJobFields = { fields with payloadJson := text } := by
  unfold JobFields.construct at built
  split at built
  · contradiction
  · rename_i text read
    split at built
    · contradiction
    · rename_i found validated
      obtain rfl := Except.ok.inj built
      exact ⟨text, read, (JobFields.validate_ok validated).symm⟩

theorem payloadObject_ok {payload : PyStr} {text : String}
    (read : payloadObject φ payload = .ok text) :
    ∃ members : Dict φ, strictJson payload maxJsonBytes = .ok members ∧
      text = String.ofList (Json.write Json.asciiInk (Json.sortKeys (.obj members))) := by
  obtain ⟨members, accepted, rest⟩ := bind_ok_iff.mp read
  obtain ⟨written, dumped, same⟩ := bind_ok_iff.mp rest
  obtain ⟨chars, -, -, object⟩ := strictJson_ok.mp accepted
  rw [canonical_of_clean (clean_of_strictObject object)] at dumped
  obtain rfl := Except.ok.inj dumped
  exact ⟨members, accepted, (Except.ok.inj same).symm⟩

/-- The canonical payload is its own payload within the bound, and is refused
beyond it. -/
theorem payloadObject_canonical [LawfulFloats φ] {members : Dict φ}
    (clean : Clean maxNesting (.obj members)) {text : String}
    (same : text = String.ofList (Json.write Json.asciiInk (Json.sortKeys (.obj members)))) :
    payloadObject φ text =
      if maxJsonBytes < compactSize (.obj members) then
        .error (.valueError "JSON object exceeds byte bound")
      else .ok text := by
  obtain ⟨again, sorted, read⟩ := strictJson_canonical clean
  have chars : PyStr.ofString text =
      .ofChars (Json.write Json.asciiInk (Json.sortKeys (.obj members))) := by
    rw [PyStr.ofString_eq, same, String.toList_ofList]
  rw [payloadObject, chars, read]
  split
  · rfl
  · show (canonical (.obj again) >>= fun written => pure (String.ofList written)) = _
    rw [← sorted, canonical_of_clean clean.sortKeys, clean.sortKeys_sortKeys, same]
    rfl

theorem Job.survives_iff [LawfulFloats φ] (lossless : codec.Lossless) {job : Job}
    {members : Dict φ} (clean : Clean maxNesting (.obj members))
    (same : job.payloadJson =
      String.ofList (Json.write Json.asciiInk (Json.sortKeys (.obj members)))) :
    job.Survives φ codec ↔ compactSize (.obj members) ≤ maxJsonBytes := by
  have reads : Job.modelValidateJson φ codec (job.modelDumpJson codec) =
      job.toJobFields.construct φ job.payloadJson := by
    rw [Job.modelValidateJson, Job.modelDumpJson, lossless]
    rfl
  have payload := payloadObject_canonical clean same
  constructor
  · rintro ⟨again, read, -⟩
    rw [reads, JobFields.construct, payload] at read
    by_contra large
    rw [if_pos (not_le.mp large)] at read
    contradiction
  · intro within
    refine ⟨job, ?_, rfl, rfl⟩
    rw [reads, JobFields.construct, payload, if_neg (not_lt.mpr within)]
    have validated : job.toJobFields.validate = .ok job := job.validate_toJobFields
    simp only [validated]

/-- The canonical form of an accepted object is a fixed point, and a job with
that payload is read back as it was, exactly when the object takes no more than
8000000 characters in compact ASCII. -/
theorem canonical_form_survives [LawfulFloats φ] (lossless : codec.Lossless) :
    (∀ (value : PyStr) (members : Dict φ), strictJson value maxJsonBytes = .ok members →
      (CanonicalStable members ↔ compactSize (.obj members) ≤ maxJsonBytes)) ∧
    (∀ (fields : JobFields) (payload : PyStr) (job : Job),
      fields.construct φ payload = .ok job →
        ∃ members : Dict φ, strictJson payload maxJsonBytes = .ok members ∧
          (job.Survives φ codec ↔ compactSize (.obj members) ≤ maxJsonBytes)) := by
  constructor
  · intro value members accepted
    obtain ⟨text, -, -, object⟩ := strictJson_ok.mp accepted
    exact canonicalStable_iff (clean_of_strictObject object)
  · intro fields payload job built
    obtain ⟨text, read, same⟩ := JobFields.construct_ok built
    obtain ⟨members, accepted, rfl⟩ := payloadObject_ok read
    obtain ⟨chars, -, -, object⟩ := strictJson_ok.mp accepted
    have written : job.payloadJson =
        String.ofList (Json.write Json.asciiInk (Json.sortKeys (.obj members))) := by
      rw [same]
    exact ⟨members, accepted, job.survives_iff codec lossless (clean_of_strictObject object) written⟩

/-- The fields are their own text. -/
def FieldCodec.plain : FieldCodec JobFields := ⟨id, .ok⟩

end

/-! ## A payload that fits once -/

namespace Sample

/-- An object whose only member holds a text. -/
def note (text : List Char) : Dict Verbatim := [([Json.pointOf 'a'], .str (text.map Json.pointOf))]

/-- The object in JSON, without escapes. -/
def noteText (text : List Char) : List Char :=
  ['{', '"', 'a', '"', ':', '"'] ++ text ++ ['"', '}']

theorem strictObject_noteText {text : List Char} (literal : Json.Literal text) :
    strictObject (noteText text) = .ok (note text) := by
  rw [strictObject_ok]
  constructor
  · have name := Json.literal_units (show Json.Literal ['a'] by simp [Json.Literal])
    have value : Json.Spells (strictHooks : Json.Hooks Verbatim) 999 _ _ :=
      Json.literal_spells literal
    have spelled := Json.Spells.object
      (.lastMember Json.space_nil name Json.space_nil Json.space_nil value Json.space_nil)
      (strictHooks_exact.object _ (List.nodup_singleton _))
    rw [Json.joinPairs_literal] at spelled
    have read := spelled.loads Json.space_nil Json.space_nil
    simpa [noteText, note, recursionLimit] using read
  · rfl

theorem compactSize_note (count : Nat) :
    compactSize (.obj (note (List.replicate count 'é'))) = 6 * count + 8 := by
  have wide : Json.pointSize (Json.pointOf 'é') = 6 := by decide
  simp only [note, compactSize, Json.membersSize, Json.quotedSize, List.map_replicate, wide,
    List.sum_replicate_nat, List.length_singleton, max_self]
  have name : ([Json.pointOf 'a'].map Json.pointSize).sum = 1 := by decide
  omega

theorem encodedSize_noteText (count : Nat) :
    encodedSize (noteText (List.replicate count 'é')) = 2 * count + 8 := by
  have wide : 'é'.utf8Size = 2 := by decide
  simp only [encodedSize, noteText, List.map_append, List.sum_append, List.map_replicate, wide,
    List.sum_replicate_nat]
  have before : (['{', '"', 'a', '"', ':', '"'].map Char.utf8Size).sum = 6 := by decide
  have after : (['"', '}'].map Char.utf8Size).sum = 2 := by decide
  omega

/-- Few enough letters are accepted. -/
theorem strictJson_note {count : Nat} (fits : 2 * count + 8 ≤ maxJsonBytes) :
    strictJson (.ofChars (noteText (List.replicate count 'é'))) maxJsonBytes =
      .ok (note (List.replicate count 'é')) := by
  rw [strictJson, PyStr.chars_ofChars]
  simp only [encodedSize_noteText, if_neg (not_lt.mpr fits)]
  apply strictObject_noteText
  intro char member
  obtain rfl := List.eq_of_mem_replicate member
  decide

theorem clean_note {count : Nat} : Clean maxNesting (.obj (note (List.replicate count 'é'))) := by
  have literal : Json.Literal (List.replicate count 'é') := by
    intro char member
    obtain rfl := List.eq_of_mem_replicate member
    decide
  exact clean_of_strictObject (strictObject_noteText literal)

/-- The fields of a job and the payload that came with them. -/
def noteJob (count : Nat) : Except PyExc Job :=
  fields.construct Verbatim (.ofChars (noteText (List.replicate count 'é')))

/-- The job with the canonical form of the note. -/
def carrying (count : Nat) : Job where
  toJobFields :=
    { fields with
      payloadJson := String.ofList
        (Json.write Json.asciiInk (Json.sortKeys (.obj (note (List.replicate count 'é'))))) }
  valid := by
    show fields.violation = none
    decide

theorem noteJob_eq {count : Nat} (fits : 2 * count + 8 ≤ maxJsonBytes) :
    noteJob count = .ok (carrying count) := by
  have payload : payloadObject Verbatim (.ofChars (noteText (List.replicate count 'é'))) =
      .ok (carrying count).payloadJson := by
    rw [payloadObject, strictJson_note fits]
    show (canonical (.obj (note (List.replicate count 'é'))) >>= fun written =>
      pure (String.ofList written)) = _
    rw [canonical_of_clean clean_note]
    rfl
  rw [noteJob, JobFields.construct, payload]
  have validated := (carrying count).validate_toJobFields
  simp only [carrying] at validated ⊢
  rw [validated]

end Sample

/-- With 1400000 letters the text has 2800008 bytes, and its canonical form
8400008. -/
theorem canonical_form_outgrows_bound :
    (∃ members : Dict Verbatim,
      strictJson (.ofChars (Sample.noteText (List.replicate 1400000 'é'))) maxJsonBytes =
          .ok members ∧
        ¬ CanonicalStable members) ∧
      ∃ job, Sample.noteJob 1400000 = .ok job ∧ ¬ job.Survives Verbatim .plain := by
  have large : ¬ compactSize (.obj (Sample.note (List.replicate 1400000 'é'))) ≤ maxJsonBytes := by
    rw [Sample.compactSize_note]
    decide
  constructor
  · refine ⟨_, Sample.strictJson_note (by decide), ?_⟩
    rw [canonicalStable_iff Sample.clean_note]
    exact large
  · refine ⟨Sample.carrying 1400000, ?_, ?_⟩
    · exact Sample.noteJob_eq (by decide)
    · rw [Job.survives_iff _ (fun _ => rfl) Sample.clean_note rfl]
      exact large

/-- Two letters are kept, by a job as well. -/
theorem canonical_form_survives_note :
    CanonicalStable (Sample.note (List.replicate 2 'é')) ∧
      ∃ job, Sample.noteJob 2 = .ok job ∧ job.Survives Verbatim .plain := by
  have small : compactSize (.obj (Sample.note (List.replicate 2 'é'))) ≤ maxJsonBytes := by
    rw [Sample.compactSize_note]
    decide
  obtain ⟨objects, jobs⟩ := @canonical_form_survives Verbatim _ JobFields .plain _ fun _ => rfl
  have accepted := Sample.strictJson_note (show 2 * 2 + 8 ≤ maxJsonBytes by decide)
  constructor
  · exact (objects _ _ accepted).mpr small
  · obtain ⟨members, read, survives⟩ := jobs Sample.fields _ (Sample.carrying 2)
      (Sample.noteJob_eq (by decide))
    obtain rfl := Except.ok.inj (accepted.symm.trans read)
    exact ⟨_, Sample.noteJob_eq (by decide), survives.mpr small⟩

end AgminaRuntime
