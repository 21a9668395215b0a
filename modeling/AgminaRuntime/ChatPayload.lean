import AgminaRuntime.Base64
import AgminaRuntime.ChatUsage

/-!
# The outbound chat body

`validate_chat` lets a payload pass only if its messages consist of text and of
inline images whose bytes are those of a declared observation, and fixes model,
output limit and streaming from the endpoint.
-/

namespace AgminaRuntime

open Json (Value Clean)

/-- The bound of an inline image in bytes. -/
def maxInlineImage : Nat := 4000000

/-- The prefixes of an inline image. -/
def imagePrefixes : List String := ["data:image/jpeg;base64,", "data:image/png;base64,"]

/-- `url.split(",", 1)[1]` -/
def behindComma (url : List Json.Point) : List Json.Point :=
  (url.dropWhile fun point => point ≠ Json.pointOf ',').drop 1

section

variable {φ : Type}

/-- The bytes of an inline image, checked up to its size. -/
def inlineImage (item : Dict φ) : Except PyExc (List Base64.Byte) :=
  match Dict.get item "image_url" with
  | .obj image =>
      if Dict.within image ["url", "detail"] then
        match Dict.get image "url" with
        | .str url =>
            if imagePrefixes.any fun start => (field start).isPrefixOf url then
              match b64decode ⟨behindComma url⟩ with
              | none => .error (.valueError "Invalid image base64")
              | some blob =>
                  if blob = [] ∨ maxInlineImage < blob.length then
                    .error (.valueError "Image byte bound")
                  else .ok blob
            else
              .error (.valueError
                "Remote media URLs are forbidden; provide source-bound inline images")
        | _ =>
            .error (.valueError
              "Remote media URLs are forbidden; provide source-bound inline images")
      else .error (.valueError "Invalid image field")
  | _ => .error (.valueError "Invalid image field")

/-- A part of a message that consists of text alone. -/
def isTextPart (item : Dict φ) : Bool :=
  match Dict.get item "type", Dict.get item "text" with
  | .str kind, .str _ => kind = field "text" && Dict.hasExactly item ["type", "text"]
  | _, _ => false

/-- `item.get("type") == "image_url" and set(item) == {"type", "image_url"}` -/
def isImagePart (item : Dict φ) : Bool :=
  match Dict.get item "type" with
  | .str kind => kind = field "image_url" && Dict.hasExactly item ["type", "image_url"]
  | _ => false

/-- The images of the parts of a message. -/
def contentImages : List (Value φ) → Except PyExc (List (List Base64.Byte))
  | [] => .ok []
  | .obj item :: rest =>
      if isTextPart item then contentImages rest
      else if isImagePart item then do
        let blob ← inlineImage item
        let blobs ← contentImages rest
        pure (blob :: blobs)
      else .error (.valueError "Only text and inline image inputs supported")
  | _ :: _ => .error (.valueError "Invalid content item")

/-- `msg["role"] in {"system", "user", "assistant"}`; a list or a dict cannot be
looked up in a set. -/
def hasRole (role : Value φ) : Except PyExc Bool :=
  match role with
  | .str role => .ok (["system", "user", "assistant"].map field |>.contains role)
  | .arr _ | .obj _ => .error .typeError
  | _ => .ok false

/-- The images of one message. -/
def messageImages (message : Value φ) : Except PyExc (List (List Base64.Byte)) :=
  match message with
  | .obj message =>
      if Dict.hasExactly message ["role", "content"] then do
        if ← hasRole (Dict.get message "role") then
          match Dict.get message "content" with
          | .str _ => pure []
          | .arr items => contentImages items
          | _ => .error (.valueError "Invalid message content")
        else .error (.valueError "Invalid chat message")
      else .error (.valueError "Invalid chat message")
  | _ => .error (.valueError "Invalid chat message")

/-- The images of all messages, in their order. -/
def allImages : List (Value φ) → Except PyExc (List (List Base64.Byte))
  | [] => .ok []
  | message :: rest => do
      let blobs ← messageImages message
      let others ← allImages rest
      pure (blobs ++ others)

variable [PyFloats φ]

/-- `job.payload()` -/
def Job.payload (job : Job) : Except PyExc (Dict φ) :=
  strictJson (PyStr.ofString job.payloadJson) maxJsonBytes

/-- `validate_chat(job, endpoint)`; `sha256` is the hexadecimal digest of bytes. -/
def validateChat (sha256 : List Base64.Byte → String) (job : Job) (endpoint : HttpEndpoint φ) :
    Except PyExc (Dict φ) := do
  let body ← (job.payload : Except PyExc (Dict φ))
  match Dict.get body "messages" with
  | .arr messages =>
      if Dict.within body ["messages", "response_format"] then
        if 1 ≤ messages.length ∧ messages.length ≤ 128 then do
          let blobs ← allImages messages
          let available := job.observations.map fun observation => observation.sha256.text
          if blobs.any fun blob => sha256 blob ∉ available then
            .error (.valueError "Inline image not bound to declared evidence")
          else do
            let extra ← strictJson endpoint.extraBodyJson maxExtraBytes
            let result := Dict.update (Dict.update body extra)
              [(field "model", .str endpoint.modelName.points),
                (field "max_tokens", .int endpoint.maxOutputTokens),
                (field "stream", .bool endpoint.stream)]
            pure (if endpoint.stream then
              Dict.set result (field "stream_options") (.obj [(field "include_usage", .bool true)])
            else result)
        else .error (.valueError "Bounded nonempty messages required")
      else
        .error (.valueError
          "Chat payload supports messages and response_format only; sampling is server configured")
  | _ =>
      .error (.valueError
        "Chat payload supports messages and response_format only; sampling is server configured")

end

/-! ## What the messages hold -/

section

variable {φ : Type}

/-- A part that is text and nothing else. -/
structure TextPart (part : Value φ) : Prop where
  text : ∃ members text, part = .obj members ∧
    Dict.get members "type" = .str (field "text") ∧ Dict.get members "text" = .str text ∧
      ∀ name ∈ members.map Prod.fst, name ∈ ["type", "text"].map field

/-- A part that is an inline image with the given bytes and nothing else. -/
structure ImagePart (part : Value φ) (blob : List Base64.Byte) : Prop where
  image : ∃ members inner start code, part = .obj members ∧
    Dict.get members "type" = .str (field "image_url") ∧
      Dict.get members "image_url" = .obj inner ∧
        (∀ name ∈ members.map Prod.fst, name ∈ ["type", "image_url"].map field) ∧
          (∀ name ∈ inner.map Prod.fst, name ∈ ["url", "detail"].map field) ∧
            start ∈ imagePrefixes ∧ Dict.get inner "url" = .str (field start ++ code) ∧
              b64decode ⟨code⟩ = some blob
  size : 1 ≤ blob.length ∧ blob.length ≤ maxInlineImage

/-- The content of a message is a text, or each of its parts is a text or one of
the given images. -/
def ContentOf (message : Value φ) (blobs : List (List Base64.Byte)) : Prop :=
  ∃ members, message = .obj members ∧
    ((∃ text, Dict.get members "content" = .str text) ∨
      ∃ parts, Dict.get members "content" = .arr parts ∧
        ∀ part ∈ parts, TextPart part ∨ ∃ blob ∈ blobs, ImagePart part blob)

theorem ContentOf.mono {message : Value φ} {few many : List (List Base64.Byte)}
    (content : ContentOf message few) (among : ∀ blob ∈ few, blob ∈ many) :
    ContentOf message many := by
  obtain ⟨members, same, text | ⟨parts, listed, each⟩⟩ := content
  · exact ⟨members, same, .inl text⟩
  · refine ⟨members, same, .inr ⟨parts, listed, fun part member => ?_⟩⟩
    rcases each part member with text | ⟨blob, found, image⟩
    · exact .inl text
    · exact .inr ⟨blob, among blob found, image⟩

theorem textPart_of_isTextPart {item : Dict φ} (passes : isTextPart item = true) :
    TextPart (.obj item) := by
  unfold isTextPart at passes
  split at passes
  · rename_i kind text kindEq textEq
    rw [Bool.and_eq_true, decide_eq_true_eq] at passes
    obtain ⟨rfl, exactly⟩ := passes
    exact ⟨item, text, rfl, kindEq, textEq, within_of_hasExactly exactly⟩
  · contradiction

theorem behindComma_splits {start : String} (listed : start ∈ imagePrefixes)
    (code : List Json.Point) : behindComma (field start ++ code) = code := by
  simp only [imagePrefixes, List.mem_cons, List.not_mem_nil, or_false] at listed
  rcases listed with rfl | rfl <;> rfl

theorem imagePart_of_inlineImage {item : Dict φ} {blob : List Base64.Byte}
    (passes : isImagePart item = true) (read : inlineImage item = .ok blob) :
    ImagePart (.obj item) blob := by
  unfold isImagePart at passes
  split at passes
  swap
  · contradiction
  rename_i kind kindEq
  rw [Bool.and_eq_true, decide_eq_true_eq] at passes
  obtain ⟨rfl, exactly⟩ := passes
  unfold inlineImage at read
  split at read
  swap
  · contradiction
  rename_i inner innerEq
  split at read
  swap
  · contradiction
  rename_i within
  split at read
  swap
  · contradiction
  rename_i url urlEq
  split at read
  swap
  · contradiction
  rename_i begins
  rw [List.any_eq_true] at begins
  obtain ⟨start, listed, isStart⟩ := begins
  rw [List.isPrefixOf_iff_prefix] at isStart
  obtain ⟨code, rfl⟩ := isStart
  rw [behindComma_splits listed] at read
  split at read
  · contradiction
  rename_i bytes decoded
  split at read
  · contradiction
  rename_i size
  obtain rfl := Except.ok.inj read
  rw [not_or, not_lt, ← List.length_eq_zero_iff] at size
  constructor
  · exact ⟨item, inner, start, code, rfl, kindEq, innerEq, within_of_hasExactly exactly,
      within_iff.mp within, listed, urlEq, decoded⟩
  · exact ⟨Nat.one_le_iff_ne_zero.mpr size.1, size.2⟩

theorem contentImages_ok {parts : List (Value φ)} {blobs : List (List Base64.Byte)}
    (read : contentImages parts = .ok blobs) :
    ∀ part ∈ parts, TextPart part ∨ ∃ blob ∈ blobs, ImagePart part blob := by
  fun_induction contentImages parts generalizing blobs with
  | case1 => simp
  | case2 item rest isText ih =>
      intro part member
      rcases List.mem_cons.mp member with rfl | later
      · exact .inl (textPart_of_isTextPart isText)
      · exact ih read part later
  | case3 item rest _ isImage ih =>
      obtain ⟨blob, first, read⟩ := bind_ok_iff.mp read
      obtain ⟨others, restRead, same⟩ := bind_ok_iff.mp read
      obtain rfl := Except.ok.inj same
      intro part member
      rcases List.mem_cons.mp member with rfl | later
      · exact .inr ⟨blob, List.mem_cons_self, imagePart_of_inlineImage isImage first⟩
      · rcases ih restRead part later with text | ⟨other, listed, image⟩
        · exact .inl text
        · exact .inr ⟨other, List.mem_cons_of_mem _ listed, image⟩
  | case4 => contradiction
  | case5 => contradiction

theorem messageImages_ok {message : Value φ} {blobs : List (List Base64.Byte)}
    (read : messageImages message = .ok blobs) : ContentOf message blobs := by
  unfold messageImages at read
  split at read
  · rename_i members
    split at read
    · obtain ⟨role, -, read⟩ := bind_ok_iff.mp read
      refine ⟨members, rfl, ?_⟩
      split at read
      · split at read
        · rename_i text content
          exact .inl ⟨text, content⟩
        · rename_i parts content
          exact .inr ⟨parts, content, contentImages_ok read⟩
        · contradiction
      · contradiction
    · contradiction
  · contradiction

theorem allImages_ok {messages : List (Value φ)} {blobs : List (List Base64.Byte)}
    (read : allImages messages = .ok blobs) : ∀ message ∈ messages, ContentOf message blobs := by
  induction messages generalizing blobs with
  | nil => simp
  | cons message rest ih =>
      obtain ⟨first, firstRead, read⟩ := bind_ok_iff.mp read
      obtain ⟨others, restRead, same⟩ := bind_ok_iff.mp read
      obtain rfl := Except.ok.inj same
      intro other member
      rcases List.mem_cons.mp member with rfl | later
      · exact (messageImages_ok firstRead).mono fun blob => List.mem_append_left others
      · exact (ih restRead other later).mono fun blob => List.mem_append_right first

end

/-- Whatever a payload and the extras of an endpoint contain, the body that goes
out has the messages of the payload, whose images are declared evidence, and
the limits of the endpoint. -/
theorem chat_body_bound {φ : Type} [PyFloats φ] (sha256 : List Base64.Byte → String) (job : Job)
    (endpoint : HttpEndpoint φ) (body : Dict φ)
    (returned : validateChat sha256 job endpoint = .ok body) :
    (∃ (payload : Dict φ) (messages : List (Value φ)) (blobs : List (List Base64.Byte)),
      job.payload = .ok payload ∧ Dict.get payload "messages" = .arr messages ∧
        Dict.get body "messages" = .arr messages ∧
          (∀ message ∈ messages, ContentOf message blobs) ∧
            ∀ blob ∈ blobs, ∃ observation ∈ job.observations,
              observation.sha256.text = sha256 blob) ∧
      Dict.get body "model" = .str endpoint.modelName.points ∧
        Dict.get body "max_tokens" = .int endpoint.maxOutputTokens ∧
          Dict.get body "stream" = .bool endpoint.stream := by
  obtain ⟨payload, loaded, rest⟩ := bind_ok_iff.mp returned
  split at rest
  swap
  · contradiction
  rename_i messages messagesEq
  split at rest
  swap
  · contradiction
  split at rest
  swap
  · contradiction
  obtain ⟨blobs, images, rest⟩ := bind_ok_iff.mp rest
  dsimp only at rest
  split at rest
  · contradiction
  rename_i bound
  obtain ⟨extra, extraRead, rest⟩ := bind_ok_iff.mp rest
  -- the extras of a valid endpoint name no limit and no messages
  obtain ⟨valid, validRead, reserved⟩ := endpoint.extraValid
  obtain rfl : valid = extra := Except.ok.inj (validRead.symm.trans extraRead)
  have kept : ∀ name, name ∈ ["messages", "model", "max_tokens", "stream"] →
      Dict.get body name = Dict.get (Dict.update (Dict.update payload valid)
        [(field "model", .str endpoint.modelName.points),
          (field "max_tokens", .int endpoint.maxOutputTokens),
          (field "stream", .bool endpoint.stream)]) name := by
    intro name listed
    rw [← Except.ok.inj rest]
    split
    · have other : field name ≠ field "stream_options" := by
        simp only [List.mem_cons, List.not_mem_nil, or_false] at listed
        rcases listed with rfl | rfl | rfl | rfl <;> decide
      rw [Dict.get, lookup_set, if_neg other, Dict.get]
    · rfl
  refine ⟨⟨payload, messages, blobs, loaded, messagesEq, ?_, ?_, ?_⟩, ?_, ?_, ?_⟩
  · rw [kept _ (by simp), Dict.get, lookup_update (show field "messages" ∉
        [field "model", field "max_tokens", field "stream"] by decide),
      lookup_update (notMem_of_has (reserved "messages" (by simp [reservedNames])))]
    exact messagesEq
  · exact allImages_ok images
  · intro blob listed
    simp only [List.any_eq_true, decide_eq_true_eq, not_exists, not_and, not_not] at bound
    obtain ⟨observation, member, same⟩ := List.mem_map.mp (bound blob listed)
    exact ⟨observation, member, same⟩
  · rw [kept _ (by simp), Dict.get]
    simp only [Dict.update, List.foldl_cons, List.foldl_nil, lookup_set]
    rw [if_neg (by decide), if_neg (by decide), if_pos trivial]
    rfl
  · rw [kept _ (by simp), Dict.get]
    simp only [Dict.update, List.foldl_cons, List.foldl_nil, lookup_set]
    rw [if_neg (by decide), if_pos trivial]
    rfl
  · rw [kept _ (by simp), Dict.get]
    simp only [Dict.update, List.foldl_cons, List.foldl_nil, lookup_set]
    rfl

/-- A job whose payload is written carries what was written. -/
theorem payload_of_written {φ : Type} [PyFloats φ] [Json.LawfulFloats φ] {job : Job}
    {members : Dict φ}
    (carried : job.payloadJson = String.ofList (Json.write Json.asciiInk (.obj members)))
    (clean : Clean maxNesting (.obj members))
    (within : Json.compactSize (.obj members) ≤ maxJsonBytes) : job.payload = .ok members := by
  rw [Job.payload, strictJson_ok, carried, PyStr.ofString_eq, String.toList_ofList]
  refine ⟨_, PyStr.chars_ofChars _, ?_, strictObject_write clean⟩
  rwa [encodedSize_ascii clean.ascii, Json.length_write]

/-! ## A message with a text and an image -/

namespace Sample

/-- The image of a single zero byte. -/
def pictured : Dict Json.Verbatim :=
  [(field "messages", .arr [.obj [
    (field "content", .arr [
      .obj [(field "text", .str (field "what is this")), (field "type", .str (field "text"))],
      .obj [(field "image_url", .obj [(field "url", .str (field "data:image/png;base64,AA=="))]),
        (field "type", .str (field "image_url"))]]),
    (field "role", .str (field "user"))]])]

/-- The digest of the single zero byte. -/
def zeroSha : Sha :=
  ⟨"6e340b9cffb37a989ca544e6bb780a2c78901d3fb33738768511a30617afa01d", by decide⟩

def zeroDigest (bytes : List Base64.Byte) : String := if bytes = [0] then zeroSha.text else ""

/-- The fields of a job that declares the image, with a given payload. -/
def zeroFields (payloadJson : String) : JobFields :=
  { fields with
    observations := [{ observation with sha256 := zeroSha }]
    payloadJson := payloadJson }

theorem violation_zeroFields (payloadJson : String) :
    (zeroFields payloadJson).violation = none := by
  show (zeroFields "{}").violation = none
  decide

/-- A job that declares the image and asks about it. -/
def picturing : Job where
  toJobFields := zeroFields (String.ofList (Json.write Json.asciiInk (.obj pictured)))
  valid := violation_zeroFields _

theorem clean_pictured : Clean maxNesting (.obj pictured) := by
  have text (depth : Nat) (text : String) : Clean depth (.str (field text) : Value Json.Verbatim) :=
    .str (joined_field text)
  have pair {depth : Nat} {first second : String} {left right : Value Json.Verbatim}
      (names : field first ≠ field second) (leftClean : Clean depth left)
      (rightClean : Clean depth right) :
      Clean (depth + 1) (.obj [(field first, left), (field second, right)]) := by
    apply Clean.obj (fun _ => Nat.succ_pos depth)
    · simpa using names
    · simp [joined_field]
    · simpa using ⟨leftClean, rightClean⟩
  have single {depth : Nat} {name : String} {value : Value Json.Verbatim}
      (clean : Clean depth value) : Clean (depth + 1) (.obj [(field name, value)]) := by
    apply Clean.obj (fun _ => Nat.succ_pos depth)
    · simp
    · simp [joined_field]
    · simpa using clean
  have items {depth : Nat} {values : List (Value Json.Verbatim)}
      (clean : ∀ value ∈ values, Clean depth value) : Clean (depth + 1) (.arr values) :=
    .arr (fun _ => Nat.succ_pos depth) clean
  have part : Clean 28 (.obj [(field "text", .str (field "what is this")),
      (field "type", .str (field "text"))] : Value Json.Verbatim) :=
    pair (by decide) (text _ _) (text _ _)
  have image : Clean 28 (.obj [(field "image_url",
      .obj [(field "url", .str (field "data:image/png;base64,AA=="))]),
      (field "type", .str (field "image_url"))] : Value Json.Verbatim) :=
    pair (by decide) (single (text _ _)) (text _ _)
  have content := items (List.forall_mem_cons.mpr ⟨part, List.forall_mem_singleton.mpr image⟩)
  have message := pair (show field "content" ≠ field "role" by decide) content (text _ "user")
  exact single (items (List.forall_mem_singleton.mpr message))

theorem payload_picturing : (picturing.payload : Except PyExc (Dict Json.Verbatim)) =
    .ok pictured :=
  payload_of_written rfl clean_pictured (by decide +kernel)

end Sample

/-- The message with the image goes out. -/
theorem chat_body_bound_image :
    ∃ body, validateChat Sample.zeroDigest Sample.picturing
        (Sample.paidEndpoint 1000000 100000 2000000) = .ok body ∧
      Dict.get body "max_tokens" = .int 256 := by
  have returned : ∃ body, validateChat Sample.zeroDigest Sample.picturing
      (Sample.paidEndpoint 1000000 100000 2000000) = .ok body := by
    apply isOk_exists
    rw [validateChat, Sample.payload_picturing, show (Sample.paidEndpoint 1000000 100000
      2000000).extraBodyJson = PyStr.ofString "{}" from rfl, strictJson_empty (by decide)]
    decide +kernel
  obtain ⟨body, returned⟩ := returned
  exact ⟨body, returned, (chat_body_bound _ _ _ body returned).2.2.1⟩

end AgminaRuntime
