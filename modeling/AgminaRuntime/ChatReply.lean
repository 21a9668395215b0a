import AgminaRuntime.CanonicalForm
import AgminaRuntime.ChatUsage

/-!
# What a reply of a provider is read with

The attribute accesses that `infer` and `_stream_chat` share: members with a
default, iteration over a value that should be a list, the identifier and the
error of a provider, and the prediction that is returned.
-/

namespace AgminaRuntime

open Json (Value)

/-- `UnicodeDecodeError` -/
def unicodeDecodeError : PyExc := .other "UnicodeDecodeError"

/-- `BackendFailure("response_byte_bound")` -/
def responseByteBound : PyExc := .backendFailure (.new "response_byte_bound" false false)

/-- A provider's identifier of a generation. -/
structure RequestId where
  text : PyStr
  bounded : text.length ≤ 256
  deriving DecidableEq

/-- A text field takes no surrogate. -/
def RequestId.isPlain (identifier : RequestId) : Bool :=
  !identifier.text.points.any PyStr.isSurrogate

section

variable {φ : Type}

/-- `members.get(name, default)` -/
def Dict.getOr (members : Dict φ) (name : String) (default : Value φ) : Value φ :=
  (members.lookup (field name)).getD default

/-- `value == text` -/
def isText (value : Value φ) (text : PyStr) : Bool :=
  match value with
  | .str points => points = text.points
  | _ => false

/-- What iterating over a value yields. -/
def elements : Value φ → Except PyExc (List (Value φ))
  | .arr items => .ok items
  | .obj members => .ok (members.map fun member => .str member.1)
  | .str points => .ok (points.map fun point => .str [point])
  | _ => .error .typeError

/-- The value whose `get` is called. -/
def attributes : Value φ → Except PyExc (Dict φ)
  | .obj members => .ok members
  | _ => .error (.other "AttributeError")

/-- `provider_request_id(value)` -/
def providerRequestId (value : Value φ) : Option RequestId :=
  match value with
  | .obj members =>
      match Dict.get members "id" with
      | .str points =>
          if bounded : 0 < points.length ∧ points.length ≤ 256 then some ⟨⟨points⟩, bounded.2⟩
          else none
      | _ => none
  | _ => none

/-- `members.get("model")` as a failure shows it. -/
def observedModel (members : Dict φ) : PyStr :=
  match Dict.get members "model" with
  | .str points => ⟨points⟩
  | _ => "<missing>"

theorem sortKeys_answer (text : List Json.Point) :
    Json.sortKeys (.obj [(field "text", .str text)] : Value φ) =
      .obj [(field "text", .str text)] := by
  simp [Json.sortKeys, Json.sortMembers]

variable [PyFloats φ]

variable (φ) in
/-- `Prediction(payload_json=..., usage=..., first_content_ns=...,
provider_request_id=...)`: its validator reads the payload again, and the
identifier has to be plain text. -/
def Prediction.construct (payload : List Char) (usage : Usage) (firstContentNs : Option Ns)
    (requestId : Option RequestId) : Except PyExc Prediction :=
  match payloadObject φ (PyStr.ofChars payload) with
  | .error _ => .error (.validationError "payload_json")
  | .ok text =>
      if requestId.all RequestId.isPlain then .ok
        { payloadJson := text
          usage := usage
          firstContentNs := firstContentNs
          providerRequestId := requestId.map RequestId.text
          requestIdBounded := by
            intro text found
            obtain ⟨identifier, -, rfl⟩ := Option.mem_map.mp found
            exact identifier.bounded }
      else .error (.validationError "provider_request_id")

/-- `first or second or "unknown"`, cut to what a failure shows of it. -/
def errorCode (error : Dict φ) : PyStr :=
  let value :=
    if truthy (Dict.get error "code") then Dict.get error "code"
    else if truthy (Dict.get error "type") then Dict.get error "type"
    else .str (field "unknown")
  match value with
  | .str points => ⟨points.take 128⟩
  | _ => "invalid"

/-- `BackendFailure("provider_error:" + ..., termination_known=True)` -/
def providerError (error : Dict φ) : PyExc :=
  .backendFailure (.new ("provider_error:" ++ errorCode error) true false)

/-- The prediction of a complete answer. -/
def answer (text : List Json.Point) (usage : Value φ) (endpoint : HttpEndpoint φ)
    (firstContentNs : Option Ns) (requestId : Option RequestId) : Except PyExc Prediction := do
  let payload ← canonical (.obj [(field "text", .str text)] : Value φ)
  let usage ← usageFromChat usage endpoint
  Prediction.construct φ payload usage firstContentNs requestId

/-! ## The text of an answer -/

/-- `canonical({"text": text})` -/
def answerText (text : List Json.Point) : List Char :=
  '{' :: (Json.asciiInk.quoted (field "text") ++ ':' :: (Json.asciiInk.quoted text ++ ['}']))

theorem write_answer (text : List Json.Point) :
    Json.write Json.asciiInk (.obj [(field "text", .str text)] : Value φ) = answerText text := by
  simp [answerText, Json.write, Json.writeMembers, Json.asciiInk]

theorem canonical_answer (text : List Json.Point) :
    canonical (.obj [(field "text", .str text)] : Value φ) = .ok (answerText text) := by
  rw [canonical, sortKeys_answer]
  simp only [dumpFault, dumpFaultMembers, Option.or_none, write_answer]

/-- The text of an answer does not tell surrogates from what they stand for. -/
theorem answerText_joinPairs (text : List Json.Point) :
    answerText (Json.joinPairs text) = answerText text := by
  simp only [answerText, Json.Ink.quoted, Json.asciiInk, Json.ascii_joinPairs]

theorem ascii_answerText (text : List Json.Point) : Json.Ascii (answerText text) := by
  have names : Json.Ascii (Json.asciiInk.quoted (field "text")) := Json.ascii_quoted _
  have texts : Json.Ascii (Json.asciiInk.quoted text) := Json.ascii_quoted _
  apply Json.Ascii.cons (by decide)
  apply names.append
  apply Json.Ascii.cons (by decide)
  apply texts.append
  exact Json.Ascii.cons (by decide) (by simp [Json.Ascii])

/-- The answer is read back, its surrogate pairs joined. -/
theorem strictObject_answer (text : List Json.Point) :
    strictObject (answerText text) =
      .ok ([(field "text", .str (Json.joinPairs text))] : Dict φ) := by
  obtain ⟨joined, same⟩ : ∃ joined, joined = Json.joinPairs text := ⟨_, rfl⟩
  have isJoined : Json.Joined joined := same ▸ Json.joined_joinPairs text
  have value : Json.Spells (strictHooks : Json.Hooks φ) 999 (.value (.str joined))
      (Json.write Json.asciiInk (.str joined : Value φ)) := by
    obtain ⟨-, units, again⟩ := Json.quoted_units isJoined
    have quoted : Json.Spells (strictHooks : Json.Hooks φ) 999
        (.value (.str (Json.joinPairs (joined.flatMap Json.unitsOf))))
        ('"' :: (joined.flatMap Json.asciiPoint ++ ['"'])) := .string units
    rwa [again] at quoted
  have member : Json.Spells (strictHooks : Json.Hooks φ) 999
      (.members [(field "text", .str joined)])
      (Json.writeMembers Json.asciiInk [(field "text", (.str joined : Value φ))]) :=
    Json.writeMembers_spells (by simp) (by simp [joined_field]) (by simpa using value)
  have whole : Json.Spells (strictHooks : Json.Hooks φ) recursionLimit
      (.value (.obj [(field "text", .str joined)])) (answerText joined) := by
    rw [← write_answer (φ := φ)]
    exact .object member (strictHooks_exact.object _ (by simp))
  rw [← answerText_joinPairs, ← same, strictObject_ok]
  exact ⟨by simpa using whole.loads Json.space_nil Json.space_nil, rfl⟩

/-- The validator of a prediction keeps the canonical text of an answer. -/
theorem payloadObject_answer (text : List Json.Point) :
    payloadObject φ (PyStr.ofChars (answerText text)) =
      if (answerText text).length ≤ maxJsonBytes then .ok (String.ofList (answerText text))
      else .error (.valueError "JSON object exceeds byte bound") := by
  unfold payloadObject
  rw [strictJson, PyStr.chars_ofChars]
  simp only [encodedSize_ascii (ascii_answerText text)]
  by_cases within : (answerText text).length ≤ maxJsonBytes
  · rw [if_neg (not_lt.mpr within), if_pos within, strictObject_answer]
    simp only [bind, Except.bind, canonical_answer, answerText_joinPairs]
    rfl
  · rw [if_pos (not_le.mp within), if_neg within]
    rfl

/-- The prediction of a text. -/
def Prediction.ofText (text : List Json.Point) (usage : Usage) (firstContentNs : Option Ns)
    (requestId : Option RequestId) : Prediction where
  payloadJson := String.ofList (answerText text)
  usage := usage
  firstContentNs := firstContentNs
  providerRequestId := requestId.map RequestId.text
  requestIdBounded := by
    intro text found
    obtain ⟨identifier, -, rfl⟩ := Option.mem_map.mp found
    exact identifier.bounded

theorem construct_answer (text : List Json.Point) (usage : Usage) (firstContentNs : Option Ns)
    (requestId : Option RequestId) :
    Prediction.construct φ (answerText text) usage firstContentNs requestId =
      if (answerText text).length ≤ maxJsonBytes then
        if requestId.all RequestId.isPlain then
          .ok (Prediction.ofText text usage firstContentNs requestId)
        else .error (.validationError "provider_request_id")
      else .error (.validationError "payload_json") := by
  unfold Prediction.construct
  rw [payloadObject_answer]
  by_cases within : (answerText text).length ≤ maxJsonBytes
  · rw [if_pos within, if_pos within]
    rfl
  · rw [if_neg within, if_neg within]

/-- An answer is returned if its usage can be read, its text is not too long and
its identifier is plain. -/
theorem answer_ok {text : List Json.Point} {usage : Value φ} {endpoint : HttpEndpoint φ}
    {firstContentNs : Option Ns} {requestId : Option RequestId} {result : Prediction} :
    answer text usage endpoint firstContentNs requestId = .ok result ↔
      ∃ counts, usageFromChat usage endpoint = .ok counts ∧
        (answerText text).length ≤ maxJsonBytes ∧ requestId.all RequestId.isPlain = true ∧
          result = Prediction.ofText text counts firstContentNs requestId := by
  unfold answer
  rw [canonical_answer, bind_ok_iff]
  simp only [Except.ok.injEq, exists_eq_left', bind_ok_iff, construct_answer]
  apply exists_congr
  intro counts
  apply and_congr_right
  intro _
  split
  · rename_i within
    split
    · rename_i plain
      rw [Except.ok.injEq, eq_comm]
      exact ⟨fun same => ⟨within, plain, same⟩, fun made => made.2.2⟩
    · rename_i marked
      simp [marked]
  · rename_i long
    simp [long]

end

end AgminaRuntime
