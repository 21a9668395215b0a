import AgminaRuntime.ChatReply
import AgminaRuntime.TextLines
import AgminaRuntime.Utf8Decoding
import Mathlib.Data.List.DropRight

/-!
# Streams of chat events

`_stream_chat` bounds the bytes of a reply, decodes them as they arrive, cuts
the text into lines and assembles the answer from the events in the data
lines.  Only a stream with a stop marker, a `[DONE]` and content is an answer.
-/

namespace AgminaRuntime

open Json (Value)

/-- `"data:"` -/
def dataMark : List Char := ['d', 'a', 't', 'a', ':']

/-- `"[DONE]"` -/
def doneMark : List Char := ['[', 'D', 'O', 'N', 'E', ']']

/-- `str.strip()` -/
def strip (text : List Char) : List Char :=
  (text.dropWhile fun char => isSpace (Json.pointOf char)).rdropWhile
    fun char => isSpace (Json.pointOf char)

theorem strip_eq_nil {text : List Char} :
    strip text = [] ↔ ∀ char ∈ text, isSpace (Json.pointOf char) = true := by
  constructor
  · intro empty
    unfold strip at empty
    rw [List.rdropWhile_eq_nil_iff] at empty
    induction text with
    | nil => simp
    | cons char text ih =>
        rw [List.dropWhile_cons] at empty
        split at empty
        · rename_i space
          exact List.forall_mem_cons.mpr ⟨space, ih empty⟩
        · rename_i visible
          exact absurd (empty char List.mem_cons_self) visible
  · intro blank
    have gone : text.dropWhile (fun char => isSpace (Json.pointOf char)) = [] :=
      List.dropWhile_eq_nil_iff.mpr blank
    rw [strip, gone, List.rdropWhile_nil]

/-- `str.rstrip("\r")` -/
def dropReturns (line : List Char) : List Char := line.rdropWhile (· = '\r')

/-- A piece of a reply, with what the clock shows while it is read. -/
structure Chunk where
  bytes : List UInt8
  nowNs : Ns

/-- The variables of the assembly. -/
structure Assembly (φ : Type) where
  text : List (List Json.Point)
  usage : Value φ
  first : Option Ns
  finished : Bool
  done : Bool
  requestId : Option RequestId

namespace Assembly

variable {φ : Type}

def initial : Assembly φ := ⟨[], .null, none, false, false, none⟩

variable [PyFloats φ]

/-- The content of a choice. -/
def takeContent (nowNs : Ns) (self : Assembly φ) (content : Value φ) :
    Except PyExc (Assembly φ) :=
  if truthy content then
    match content with
    | .str points =>
        if self.finished then .error (.valueError "Invalid streaming content")
        else .ok { self with
          first := some (self.first.getD nowNs)
          text := self.text ++ [points] }
    | _ => .error (.valueError "Invalid streaming content")
  else .ok self

/-- The finish reason of a choice. -/
def takeReason (self : Assembly φ) (reason : Value φ) : Except PyExc (Assembly φ) :=
  match reason with
  | .null => .ok self
  | reason =>
      if isText reason "stop" then .ok { self with finished := true }
      else .error (.backendFailure (.new "incomplete_chat_answer" false false))

def takeChoice (nowNs : Ns) (self : Assembly φ) (choice : Value φ) :
    Except PyExc (Assembly φ) := do
  let members ← attributes choice
  let delta ← attributes (Dict.getOr members "delta" (.obj []))
  let self ← self.takeContent nowNs (Dict.get delta "content")
  self.takeReason (Dict.get members "finish_reason")

/-- The choices of an event. -/
def takeChoices (nowNs : Ns) (self : Assembly φ) (choices : List (Value φ)) :
    Except PyExc (Assembly φ) :=
  if 1 < choices.length then .error (.valueError "Multiple completions not supported")
  else choices.foldlM (takeChoice nowNs) self

/-- The request identifier of the first event that has one. -/
def identify (self : Assembly φ) (members : Dict φ) : Assembly φ :=
  { self with requestId := self.requestId.or (providerRequestId (.obj members)) }

/-- The usage of the last event that has one. -/
def account (self : Assembly φ) (members : Dict φ) : Assembly φ :=
  match Dict.get members "usage" with
  | .null => self
  | usage => { self with usage := usage }

end Assembly

section

variable {φ : Type} [PyFloats φ] (endpoint : HttpEndpoint φ)

/-- The model of an event is the configured one, or missing where that is
allowed. -/
def streamModelBound (members : Dict φ) : Bool :=
  if Dict.has members "model" then isText (Dict.get members "model") endpoint.modelName
  else !endpoint.responseModelRequired

/-- What `parse_line` does with an event. -/
def Assembly.takeEvent (nowNs : Ns) (self : Assembly φ) (members : Dict φ) :
    Except PyExc (Assembly φ) :=
  match Dict.get members "error" with
  | .obj error => .error (providerError error)
  | _ =>
      if streamModelBound endpoint members then do
        let choices ← elements (Dict.getOr members "choices" (.arr []))
        ((self.identify members).account members).takeChoices nowNs choices
      else .error (.backendFailure
        (.new ("stream_model_mismatch:" ++ observedModel members) true false))

/-- `parse_line(line)` -/
def Assembly.parseLine (nowNs : Ns) (self : Assembly φ) (line : List Char) :
    Except PyExc (Assembly φ) :=
  if dataMark.isPrefixOf line then
    let value := strip (line.drop 5)
    if value = doneMark then .ok { self with done := true }
    else if self.done then .error (.valueError "Content after DONE")
    else do
      let members ← strictJson (PyStr.ofChars value) endpoint.maxResponseBytes
      self.takeEvent endpoint nowNs members
  else .ok self

/-- The variables of the loop over the pieces. -/
structure StreamReader (φ : Type) where
  size : Nat
  pending : List UInt8
  buffer : List Char
  assembly : Assembly φ

def StreamReader.initial : StreamReader φ := ⟨0, [], [], .initial⟩

/-- `buffer.split("\n", 1)` for as long as there is a line. -/
def splitLines (buffer : List Char) : List (List Char) × List Char :=
  Lines.split (· = '\n') buffer

namespace StreamReader

/-- The lines that a piece finishes. -/
def parseLines (nowNs : Ns) (self : Assembly φ) (lines : List (List Char)) :
    Except PyExc (Assembly φ) :=
  lines.foldlM (fun self line => self.parseLine endpoint nowNs (dropReturns line)) self

/-- One turn of the loop over the pieces. -/
def readChunk (self : StreamReader φ) (chunk : Chunk) : Except PyExc (StreamReader φ) :=
  let size := self.size + chunk.bytes.length
  if endpoint.maxResponseBytes < size then .error responseByteBound
  else
    match Utf8.feed self.pending chunk.bytes with
    | none => .error unicodeDecodeError
    | some (text, pending) => do
        let (lines, buffer) := splitLines (self.buffer ++ text)
        let assembly ← parseLines endpoint chunk.nowNs self.assembly lines
        pure ⟨size, pending, buffer, assembly⟩

/-- The line behind the last break. -/
def endStream (nowNs : Ns) (self : StreamReader φ) : Except PyExc (Assembly φ) :=
  if self.pending ≠ [] then .error unicodeDecodeError
  else if strip self.buffer ≠ [] then
    self.assembly.parseLine endpoint nowNs (dropReturns self.buffer)
  else .ok self.assembly

end StreamReader

/-- Only a complete stream is an answer. -/
def Assembly.finish (self : Assembly φ) : Except PyExc Prediction :=
  if self.done && self.finished && !self.text.isEmpty then
    answer self.text.flatten self.usage endpoint self.first self.requestId
  else .error (.backendFailure (.new "incomplete_stream" false false))

/-- `_stream_chat(response, endpoint)` for a response that delivers the pieces;
`endNs` is what the clock shows behind the last one. -/
def streamChat (chunks : List Chunk) (endNs : Ns) : Except PyExc Prediction := do
  let reader ← chunks.foldlM (StreamReader.readChunk endpoint) .initial
  let assembly ← reader.endStream endpoint endNs
  assembly.finish endpoint

end

namespace Sample

/-- A chat endpoint that streams. -/
def streaming : HttpEndpoint Json.Verbatim :=
  { paidEndpoint 1000000 100000 2000000 with stream := true }

/-- A stream with one event. -/
def streamText : List Char :=
  ("data: \x7b\"id\":\"g\",\"model\":\"vision\",\"choices\":[\x7b\"delta\":\x7b\"content\":\"é\"\x7d," ++
    "\"finish_reason\":\"stop\"\x7d]\x7d\r\n\ndata: [DONE]").toList

end Sample

end AgminaRuntime
