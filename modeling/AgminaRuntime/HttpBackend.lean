import AgminaRuntime.ChatPayload
import AgminaRuntime.ChatStream
import AgminaRuntime.TensorPayload

/-!
# The HTTP backend

`infer` in two parts: what happens up to the point where the request is handed
to the network, and what is made of the response.  The first part has a `try`
block of its own for the payload; the second block covers what the HTTP client
does before it sends the request as well as the response.
-/

namespace AgminaRuntime

open Json (Value)

/-- What the backend is given: its authorisation, a transport of its own and
the environment. -/
structure HttpEnvironment where
  allowNetwork : Bool
  transport : Bool
  getenv : String → Option PyStr

/-- What `self.client.stream("POST", ...)` is called with: the header of the
request's id, the bearer of the authorisation and the JSON body. -/
structure HttpRequest (φ : Type) where
  requestId : Name
  secret : Option PyStr
  body : Dict φ

/-- What comes back: the transport fails, or a response whose pieces arrive
until it ends or is interrupted. -/
inductive Exchange
  | failed
  | response (status : Nat) (chunks : List Chunk) (interrupted : Bool) (endNs : Ns)

/-- `httpx.HTTPError` -/
def httpError : PyExc := .other "HTTPError"

/-- `isinstance(exc, (ValueError, TypeError, OverflowError))` -/
def isInvalidPayload : PyExc → Bool
  | .valueError _ | .validationError _ | .typeError | .overflowError | .unicodeEncodeError => true
  | exception => exception = unicodeDecodeError

/-- `isinstance(exc, (httpx.HTTPError, UnicodeError))` -/
def isTransportFault : PyExc → Bool
  | .unicodeEncodeError => true
  | exception => exception = unicodeDecodeError || exception = httpError

/-- The first `except` clause: nothing has been sent. -/
def catchInvalid {α : Type} (tried : Except PyExc α) : Except PyExc α :=
  match tried with
  | .ok value => .ok value
  | .error exception =>
      if isInvalidPayload exception then
        .error (.backendFailure (.new "invalid_outbound_payload" false true))
      else .error exception

/-- The second `except` clause. -/
def catchTransport {α : Type} (tried : Except PyExc α) : Except PyExc α :=
  match tried with
  | .ok value => .ok value
  | .error exception =>
      if isTransportFault exception then
        .error (.backendFailure (.new "transport_failure" false false))
      else .error exception

section

variable {φ : Type}

/-- `o.model_dump(mode="json")` -/
def Observation.dump (observation : Observation) : Value φ :=
  .obj [(field "id", .str (field observation.id.text)),
    (field "source", .str (field observation.source.text)),
    (field "sequence", .int observation.sequence.val),
    (field "sha256", .str (field observation.sha256.text)),
    (field "capture_ns", .int observation.captureNs.val),
    (field "available_ns", .int observation.availableNs.val),
    (field "uncertainty_ns", .int observation.uncertaintyNs.val),
    (field "role", .str (field (match observation.role with
      | .current => "current"
      | .context => "context"))),
    (field "source_time", match observation.sourceTime with
      | some text => .str (field text)
      | none => .null)]

/-- The body for a worker. -/
def workerBody (job : Job) (payload : Dict φ) : Dict φ :=
  [(field "job_id", .str (field job.id.text)),
    (field "session_id", .str (field job.sessionId.text)),
    (field "epoch", .int job.epoch.val),
    (field "task_revision", .str (field job.taskRevision.text)),
    (field "operation", .str (field job.operation.text)),
    (field "evidence", .arr (job.observations.map Observation.dump)),
    (field "payload", .obj payload)]

/-- The names of the tensors differ. -/
def distinctNames (tensors : List (Value φ)) : Bool :=
  (tensors.map fun tensor =>
    match memberOf tensor "name" with
    | .str points => points
    | _ => []).Nodup

variable [PyFloats φ]

/-- The body for a tensor server. -/
def tritonBody (payload : Dict φ) : Except PyExc (Dict φ) :=
  match Dict.get payload "inputs" with
  | .arr (tensor :: rest) =>
      if Dict.hasExactly payload ["inputs"] then do
        tensorChecks (tensor :: rest)
        if distinctNames (tensor :: rest) then pure payload
        else .error (.valueError "Duplicate input tensor names")
      else .error (.valueError "Triton payload must contain nonempty inputs")
  | _ => .error (.valueError "Triton payload must contain nonempty inputs")

variable (sha256 : List Base64.Byte → String)

/-- The first `try` block. -/
def outboundBody (job : Job) (endpoint : HttpEndpoint φ) : Except PyExc (Dict φ) := do
  let body ← (job.payload : Except PyExc (Dict φ))
  match endpoint.kind with
  | .chat => validateChat sha256 job endpoint
  | .triton => tritonBody body
  | .worker => pure (workerBody job body)
  | .mock => .error (.valueError "Unsupported HTTP adapter")

/-- The credential that the endpoint names. -/
def credential (environment : HttpEnvironment) (endpoint : HttpEndpoint φ) :
    Except PyExc (Option PyStr) :=
  match endpoint.credentialEnv with
  | none => .ok none
  | some name =>
      match environment.getenv name with
      | some ⟨point :: points⟩ => .ok (some ⟨point :: points⟩)
      | _ => .error (.backendFailure (.new "missing_endpoint_credential" false true))

/-- How the client makes a request to the endpoint, before anything is sent.  It
is not part of the program: whatever it raises, it raises. -/
abbrev Encoder (φ ω : Type) : Type := HttpRequest φ → Except PyExc ω

variable {ω : Type} (encode : Encoder φ ω)

/-- `infer` up to the point where the request is handed to the network. -/
def prepare (environment : HttpEnvironment) (job : Job) (endpoint : HttpEndpoint φ) :
    Except PyExc ω := do
  if !environment.allowNetwork && !environment.transport then
    .error (.backendFailure (.new "network_not_authorized" false true))
  else do
    let secret ← credential environment endpoint
    let body ← catchInvalid (outboundBody sha256 job endpoint)
    catchTransport (encode ⟨job.id, secret, body⟩)

/-! ## The response -/

variable (endpoint : HttpEndpoint φ)

/-- The bytes of a reply, bounded as they arrive. -/
def readBody (chunks : List Chunk) : Except PyExc (List UInt8) :=
  chunks.foldlM (fun raw chunk =>
    if endpoint.maxResponseBytes < (raw ++ chunk.bytes).length then .error responseByteBound
    else .ok (raw ++ chunk.bytes)) []

/-- `strict_json(raw.decode("utf8"), max_bytes=endpoint.max_response_bytes)` -/
def decodeBody (raw : List UInt8) : Except PyExc (Dict φ) :=
  match Utf8.feed [] raw with
  | some (text, []) => strictJson (PyStr.ofChars text) endpoint.maxResponseBytes
  | _ => .error unicodeDecodeError

/-- `choices[0]` of a value with one element. -/
def onlyChoice : Value φ → Except PyExc (Value φ)
  | .arr (choice :: _) => .ok choice
  | .str (point :: _) => .ok (.str [point])
  | _ => .error (.keyError "0")

/-- The model of a reply is the configured one, or missing where that is
allowed. -/
def replyModelBound (members : Dict φ) : Bool :=
  match Dict.get members "model" with
  | .null => !endpoint.responseModelRequired
  | model => isText model endpoint.modelName

/-- The reply of a chat endpoint. -/
def chatReply (reply : Dict φ) : Except PyExc Prediction :=
  match Dict.get reply "error" with
  | .obj error => .error (providerError error)
  | _ =>
      if replyModelBound endpoint reply then do
        let choices := Dict.getOr reply "choices" (.arr [])
        if (← elements choices).length ≠ 1 then
          .error (.backendFailure (.new "incomplete_chat_answer" true false))
        else do
          let choice ← attributes (← onlyChoice choices)
          if isText (Dict.get choice "finish_reason") "stop" then do
            let message ← attributes (Dict.getOr choice "message" (.obj []))
            match Dict.get message "content" with
            | .str (point :: points) =>
                answer (point :: points) (Dict.get reply "usage") endpoint none
                  (providerRequestId (.obj reply))
            | _ => .error (.backendFailure (.new "missing_chat_content" true false))
          else .error (.backendFailure (.new "incomplete_chat_answer" true false))
      else .error (.backendFailure
        (.new ("response_model_mismatch:" ++ observedModel reply) true false))

/-- The version of a tensor reply is the configured one, if there is one. -/
def versionBound (reply : Dict φ) : Bool :=
  match endpoint.modelVersion with
  | none => true
  | some version => isText (Dict.get reply "model_version") version

/-- The reply of a tensor server. -/
def tritonReply (reply : Dict φ) : Except PyExc Prediction :=
  if isText (Dict.get reply "model_name") endpoint.modelName && versionBound endpoint reply then
    match Dict.get reply "outputs" with
    | .arr (tensor :: rest) => do
        tensorChecks (tensor :: rest)
        if distinctNames (tensor :: rest) then do
          let payload ← canonical (.obj [(field "outputs", .arr (tensor :: rest))] : Value φ)
          let usage ← usageFromChat (.null : Value φ) endpoint
          Prediction.construct φ payload usage none none
        else .error (.valueError "Duplicate output tensor names")
    | _ => .error (.valueError "No tensor output")
  else .error (.backendFailure (.new "tensor_model_version_mismatch" true false))

/-- The fields of a usage that a worker reports. -/
def usageNames : List String :=
  ["input_tokens", "output_tokens", "cached_input_tokens", "reasoning_output_tokens",
    "cost_microusd"]

/-- `Usage.model_validate_json(canonical(value))` -/
def workerUsage (value : Value φ) : Except PyExc Usage := do
  let _ ← canonical value
  match value with
  | .obj members =>
      if Dict.within members usageNames then do
        let input ← nsField (Dict.get members "input_tokens")
        let output ← nsField (Dict.get members "output_tokens")
        let cached ← nsField (Dict.get members "cached_input_tokens")
        let reasoning ← nsField (Dict.get members "reasoning_output_tokens")
        let cost ← nsField (Dict.get members "cost_microusd")
        let usage ← Usage.construct input output cached reasoning
        pure { usage with costMicrousd := cost.map Fin.val }
      else .error (.validationError "Usage")
  | _ => .error (.validationError "Usage")

/-- The comparison of a floating-point number with an integer. -/
class ComparedFloats (φ : Type) extends PyFloats φ where
  /-- `value == number` -/
  equals : φ → Int → Bool

end

instance : ComparedFloats Json.Verbatim where
  equals value number := value.toRat = number

section

variable {φ : Type} [ComparedFloats φ]

/-- `value == number` -/
def isNumber (value : Value φ) (number : Int) : Bool :=
  match value with
  | .int value => value = number
  | .bool value => (if value then 1 else 0) = number
  | .float value => ComparedFloats.equals value number
  | _ => false

/-- The reply of a worker. -/
def workerReply (job : Job) (reply : Dict φ) : Except PyExc Prediction :=
  if Dict.hasExactly reply ["job_id", "epoch", "payload", "usage"] &&
      (isText (Dict.get reply "job_id") (PyStr.ofString job.id.text) &&
        isNumber (Dict.get reply "epoch") job.epoch.val) then do
    let payload ← canonical (Dict.get reply "payload")
    let usage ← workerUsage (Dict.get reply "usage")
    Prediction.construct φ payload usage none none
  else .error (.backendFailure (.new "worker_result_binding" true false))

variable (endpoint : HttpEndpoint φ)

/-- The response inside the second `try` block. -/
def receiveReply (job : Job) : Exchange → Except PyExc Prediction
  | .failed => .error httpError
  | .response status chunks interrupted endNs =>
      if status ≠ 200 then
        .error (.backendFailure (.new (PyStr.ofString ("http_status_" ++ toString status))
          false false))
      else if endpoint.kind = .chat ∧ endpoint.stream then
        if interrupted then do
          let _ ← chunks.foldlM (StreamReader.readChunk endpoint) .initial
          .error httpError
        else streamChat endpoint chunks endNs
      else do
        let raw ← readBody endpoint chunks
        if interrupted then .error httpError
        else do
          let reply ← decodeBody endpoint raw
          match endpoint.kind with
          | .chat => chatReply endpoint reply
          | .triton => tritonReply endpoint reply
          | _ => workerReply job reply

variable (sha256 : List Base64.Byte → String) {ω : Type} (encode : Encoder φ ω)

end

end AgminaRuntime
