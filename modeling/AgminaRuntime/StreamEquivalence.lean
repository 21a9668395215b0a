import AgminaRuntime.HttpBackend
import AgminaRuntime.StreamCompleteness

/-!
# Whole replies and streams

The two readers of a chat reply are written separately.  On a body and on a
stream that say the same they agree, but for a model that is `null` where none
is required: the one takes it for a missing model and the other for a wrong
one.
-/

namespace AgminaRuntime

open Json (Value)

/-! ## A stream as the values of its data lines -/

section Values

variable {φ : Type}

/-- What opens with a bracket is an array. -/
theorem loads_bracket {hooks : Json.Hooks φ} [Json.Floats φ] {limit : Nat} {rest : List Char}
    {value : Value φ} (read : Json.loads hooks limit ('[' :: rest) = .ok value) :
    ∃ items, value = .arr items := by
  unfold Json.loads at read
  split at read
  · contradiction
  rename_i found after scanned
  have same : found = value := by
    split at read
    · exact Except.ok.inj read
    · contradiction
  subst same
  rw [Json.skipSpace_cons (by decide), List.length_cons,
    show 3 * (rest.length + 1) = 3 * rest.length + 2 + 1 by omega] at scanned
  cases limit with
  | zero =>
      unfold Json.scanOnce at scanned
      simp at scanned
  | succ limit =>
      rw [Json.scanOnce_bracket] at scanned
      unfold Json.scanArray at scanned
      split at scanned
      · exact ⟨[], (congrArg Prod.fst (Except.ok.inj scanned)).symm⟩
      · obtain ⟨items, tail, -, rest⟩ := Json.Scan.andThen_eq_ok.mp scanned
        exact ⟨items, (congrArg Prod.fst (Except.ok.inj rest)).symm⟩

variable [PyFloats φ] (endpoint : HttpEndpoint φ)

theorem strictJson_done {maxBytes : Nat} {members : Dict φ} :
    strictJson (PyStr.ofChars doneMark) maxBytes ≠ .ok members := by
  intro read
  obtain ⟨text, chars, -, accepted⟩ := strictJson_ok.mp read
  rw [PyStr.chars_ofChars, Option.some.injEq] at chars
  obtain ⟨items, same⟩ := loads_bracket (chars ▸ (strictObject_ok.mp accepted).1 :
    Json.loads strictHooks recursionLimit doneMark = .ok (.obj members))
  contradiction

/-- What `parse_line` does with the value of a data line. -/
def Assembly.takeValue (nowNs : Ns) (self : Assembly φ) (value : List Char) :
    Except PyExc (Assembly φ) :=
  if value = doneMark then .ok { self with done := true }
  else if self.done then .error (.valueError "Content after DONE")
  else do
    let members ← strictJson (PyStr.ofChars value) endpoint.maxResponseBytes
    self.takeEvent endpoint nowNs members

theorem Assembly.parseLine_values (nowNs : Ns) (self : Assembly φ) (line : List Char) :
    self.parseLine endpoint nowNs line =
      (lineValues line).foldlM (Assembly.takeValue endpoint nowNs) self := by
  unfold parseLine lineValues
  split
  · rw [List.foldlM_cons, takeValue]
    simp only [List.foldlM_nil, bind_pure]
  · rfl

theorem StreamReader.parseLines_values (self : Assembly φ) (lines : List (List Char)) :
    parseLines endpoint 0 self lines =
      (lines.flatMap fun line => lineValues (dropReturns line)).foldlM
        (Assembly.takeValue endpoint 0) self := by
  unfold parseLines
  induction lines generalizing self with
  | nil => rfl
  | cons line lines ih =>
      rw [List.foldlM_cons, List.flatMap_cons, List.foldlM_append, Assembly.parseLine_values]
      exact congrArg _ (funext ih)

theorem StreamReader.endStream_values {self : StreamReader φ} (whole : self.pending = []) :
    self.endStream endpoint 0 =
      (lineValues (dropReturns self.buffer)).foldlM (Assembly.takeValue endpoint 0)
        self.assembly := by
  unfold endStream
  rw [if_neg (by simp [whole])]
  split
  · rw [Assembly.parseLine_values]
  · rename_i blank
    rw [not_not] at blank
    rw [lineValues_blank blank]
    rfl

/-- The text of a stream within the bound is read by its data lines. -/
theorem streamBytes_text {text : List Char}
    (within : (Utf8.encode text).length ≤ endpoint.maxResponseBytes) :
    streamBytes endpoint (Utf8.encode text) =
      (dataValues text).foldlM (Assembly.takeValue endpoint 0) .initial >>= fun assembly =>
        assembly.finish endpoint := by
  have decoded : Utf8.feed (StreamReader.initial : StreamReader φ).pending (Utf8.encode text) =
      some (text, []) := Utf8.feed_encode text
  have room : (StreamReader.initial : StreamReader φ).size + (Utf8.encode text).length ≤
      endpoint.maxResponseBytes := by
    rw [StreamReader.initial, Nat.zero_add]
    exact within
  rw [streamBytes_eq, StreamReader.feed_eq room decoded, dataValues_eq, List.foldlM_append,
    StreamReader.parseLines_values]
  simp only [StreamReader.initial, List.nil_append]
  cases ((splitLines text).1.flatMap fun line => lineValues (dropReturns line)).foldlM
      (Assembly.takeValue endpoint 0) (Assembly.initial : Assembly φ) with
  | error fault => rfl
  | ok assembly =>
      simp only [bind, Except.bind]
      rw [StreamReader.endStream_values endpoint rfl]

/-- Events are taken one after the other. -/
theorem foldlM_takeValue {values : List (List Char)} {events : List (Dict φ)}
    (reads : List.Forall₂ (fun value event =>
      strictJson (PyStr.ofChars value) endpoint.maxResponseBytes = .ok event) values events)
    {self : Assembly φ} (running : self.done = false) :
    values.foldlM (Assembly.takeValue endpoint 0) self =
      events.foldlM (Assembly.takeEvent endpoint 0) self := by
  induction reads generalizing self with
  | nil => rfl
  | @cons value event values events read reads ih =>
      have other : value ≠ doneMark := by
        rintro rfl
        exact strictJson_done read
      have taken : self.takeValue endpoint 0 value = self.takeEvent endpoint 0 event := by
        rw [Assembly.takeValue, if_neg other, if_neg (by simp [running]), read]
        rfl
      rw [List.foldlM_cons, List.foldlM_cons, taken]
      cases parsed : self.takeEvent endpoint 0 event with
      | error fault => rfl
      | ok after =>
          obtain ⟨texts, took⟩ := Assembly.takeEvent_ok parsed
          exact ih (took.done.trans running)

/-- A stream of events with a `[DONE]` behind them. -/
theorem streamBytes_events {text : List Char} {values : List (List Char)} {events : List (Dict φ)}
    (within : (Utf8.encode text).length ≤ endpoint.maxResponseBytes)
    (split : dataValues text = values ++ [doneMark])
    (reads : List.Forall₂ (fun value event =>
      strictJson (PyStr.ofChars value) endpoint.maxResponseBytes = .ok event) values events) :
    streamBytes endpoint (Utf8.encode text) =
      events.foldlM (Assembly.takeEvent endpoint 0) .initial >>= fun assembly =>
        Assembly.finish endpoint { assembly with done := true } := by
  rw [streamBytes_text endpoint within, split, List.foldlM_append,
    foldlM_takeValue endpoint reads rfl]
  cases events.foldlM (Assembly.takeEvent endpoint 0) (Assembly.initial : Assembly φ) with
  | error fault => rfl
  | ok assembly =>
      simp only [bind, Except.bind, List.foldlM_cons, List.foldlM_nil, Assembly.takeValue,
        if_true]
      rfl

end Values

/-! ## A body and a stream that say the same -/

section Shapes

variable {φ : Type}

/-- The identifier and the model of a reply or an event, which is no error. -/
structure Carries (members : Dict φ) (id model : Option (Value φ)) : Prop where
  noError : ∀ error, Dict.get members "error" ≠ .obj error
  id : members.lookup (field "id") = id
  model : members.lookup (field "model") = model

/-- A body with one complete choice. -/
structure WholeReply (body : Dict φ) (id model : Option (Value φ)) (text : List Json.Point)
    (usage : Value φ) : Prop extends Carries body id model where
  usage : Dict.get body "usage" = usage
  choice : ∃ choice message, Dict.getOr body "choices" (.arr []) = .arr [.obj choice] ∧
    Dict.get choice "finish_reason" = .str (field "stop") ∧
    Dict.getOr choice "message" (.obj []) = .obj message ∧
    Dict.get message "content" = .str text

/-- An event with a piece of the text. -/
structure DeltaEvent (event : Dict φ) (id model : Option (Value φ)) (content : List Json.Point)
    (reason : Value φ) : Prop extends Carries event id model where
  usage : Dict.get event "usage" = .null
  choice : ∃ choice delta, Dict.getOr event "choices" (.arr []) = .arr [.obj choice] ∧
    Dict.getOr choice "delta" (.obj []) = .obj delta ∧ Dict.get delta "content" = .str content ∧
    Dict.get choice "finish_reason" = reason

/-- The event with the usage. -/
structure UsageEvent (event : Dict φ) (id model : Option (Value φ)) (usage : Value φ) : Prop
    extends Carries event id model where
  usage : Dict.get event "usage" = usage
  choices : Dict.getOr event "choices" (.arr []) = .arr []

theorem providerRequestId_congr {first second : Dict φ}
    (same : first.lookup (field "id") = second.lookup (field "id")) :
    providerRequestId (.obj first) = providerRequestId (.obj second) := by
  have get : Dict.get first "id" = Dict.get second "id" := by
    rw [Dict.get, same, Dict.get]
  simp only [providerRequestId, get]

variable {id model : Option (Value φ)}

/-- What an identifier in the member is read as. -/
def identifierOf (id : Option (Value φ)) : Option RequestId :=
  providerRequestId (.obj (id.toList.map fun value => (field "id", value)))

theorem Carries.providerRequestId {members : Dict φ} (carries : Carries members id model) :
    providerRequestId (.obj members) = identifierOf id := by
  apply providerRequestId_congr
  rw [carries.id]
  cases id with
  | none => rfl
  | some value => simp

/-- The assembly behind some pieces of the text. -/
def Assembly.behind (texts : List (List Json.Point)) (identifier : Option RequestId) :
    Assembly φ :=
  ⟨texts, .null, if texts = [] then none else some 0, false, false,
    if texts = [] then none else identifier⟩

theorem Assembly.behind_or (texts : List (List Json.Point)) (identifier : Option RequestId) :
    (Assembly.behind texts identifier : Assembly φ).requestId.or identifier = identifier := by
  unfold behind
  split
  · rfl
  · cases identifier <;> rfl

theorem Assembly.behind_first (texts : List (List Json.Point)) (identifier : Option RequestId) :
    (Assembly.behind texts identifier : Assembly φ).first.getD 0 = 0 := by
  unfold behind
  split <;> rfl

/-- A stream of one text, cut into pieces. -/
structure StreamEvents (events : List (Dict φ)) (id model : Option (Value φ))
    (contents : List (List Json.Point)) (usage : Value φ) : Prop where
  events : ∃ front pieces last final total, events = front ++ [last, total] ∧
    contents = pieces ++ [final] ∧
    List.Forall₂ (fun event content => DeltaEvent event id model content .null) front pieces ∧
    DeltaEvent last id model final (.str (field "stop")) ∧ UsageEvent total id model usage
  nonempty : ∀ content ∈ contents, content ≠ []

/-- Whatever is raised does not say that the remote work has ended. -/
abbrev Unconfirmed {α : Type} (tried : Except PyExc α) : Prop :=
  Raises (fun exception => exception.terminationKnown = false) tried

theorem unconfirmed_nsField (value : Value φ) : Unconfirmed (nsField value) := by
  cases value with
  | null => exact raises_ok _
  | int value =>
      rw [nsField]
      split
      · exact raises_ok _
      · exact raises_error rfl
  | _ => exact raises_error rfl

variable [PyFloats φ] {endpoint : HttpEndpoint φ}

variable (endpoint) in
/-- The stream takes the model for the configured one. -/
def StreamAccepts (model : Option (Value φ)) : Prop :=
  match model with
  | none => endpoint.responseModelRequired = false
  | some model => model = .str endpoint.modelName.points

variable (endpoint) in
/-- The model is written as `null` where none is required. -/
def NullModel (model : Option (Value φ)) : Prop :=
  model = some .null ∧ endpoint.responseModelRequired = false

theorem Carries.streamModelBound {members : Dict φ} (carries : Carries members id model) :
    streamModelBound endpoint members = true ↔ StreamAccepts endpoint model := by
  unfold AgminaRuntime.streamModelBound Dict.has Dict.get StreamAccepts
  rw [carries.model]
  cases model with
  | none => simp
  | some model => simp [isText_iff]

theorem Carries.replyModelBound {members : Dict φ} (carries : Carries members id model) :
    replyModelBound endpoint members = true ↔
      StreamAccepts endpoint model ∨ NullModel endpoint model := by
  unfold AgminaRuntime.replyModelBound Dict.get StreamAccepts NullModel
  rw [carries.model]
  cases model with
  | none => simp
  | some model =>
      cases model with
      | null => simp
      | _ => simp [isText_iff]

/-- An event that is no error and has the right model is taken. -/
theorem Carries.takeEvent {event : Dict φ} (carries : Carries event id model)
    (bound : StreamAccepts endpoint model) {choices : List (Value φ)}
    (listed : Dict.getOr event "choices" (.arr []) = .arr choices) (self : Assembly φ) :
    self.takeEvent endpoint 0 event =
      ((self.identify event).account event).takeChoices 0 choices := by
  unfold Assembly.takeEvent
  split
  · rename_i error found
    exact absurd found (carries.noError error)
  · rw [if_pos (carries.streamModelBound.mpr bound), listed]
    rfl

/-- Any other model ends the stream. -/
theorem Carries.takeEvent_other {event : Dict φ} (carries : Carries event id model)
    (other : ¬ StreamAccepts endpoint model) (self : Assembly φ) :
    self.takeEvent endpoint 0 event = .error (.backendFailure
      (.new ("stream_model_mismatch:" ++ observedModel event) true false)) := by
  unfold Assembly.takeEvent
  split
  · rename_i error found
    exact absurd found (carries.noError error)
  · rw [if_neg (mt carries.streamModelBound.mp other)]

/-- What a piece of the text does to the assembly. -/
theorem DeltaEvent.takeEvent {event : Dict φ} {content : List Json.Point} {reason : Value φ}
    (delta : DeltaEvent event id model content reason) (bound : StreamAccepts endpoint model)
    (nonempty : content ≠ []) {self : Assembly φ} (open_ : self.finished = false) :
    self.takeEvent endpoint 0 event =
      Assembly.takeReason { self with
        first := some (self.first.getD 0)
        text := self.text ++ [content]
        requestId := self.requestId.or (providerRequestId (.obj event)) } reason := by
  obtain ⟨choice, inner, listed, deltaEq, contentEq, reasonEq⟩ := delta.choice
  have present : truthy (.str content : Value φ) = true := by
    cases content with
    | nil => contradiction
    | cons point points => rfl
  rw [delta.toCarries.takeEvent bound listed, Assembly.account, delta.usage]
  unfold Assembly.takeChoices
  rw [if_neg (by simp), List.foldlM_cons]
  simp only [List.foldlM_nil, Assembly.takeChoice, attributes, deltaEq, contentEq, reasonEq,
    Assembly.takeContent, present, if_true, Assembly.identify, open_, bind, Except.bind,
    Bool.false_eq_true, if_false]
  cases Assembly.takeReason _ reason <;> rfl

theorem foldlM_deltas {events : List (Dict φ)} {contents : List (List Json.Point)}
    (deltas : List.Forall₂ (fun event content => DeltaEvent event id model content .null) events
      contents)
    (bound : StreamAccepts endpoint model) (nonempty : ∀ content ∈ contents, content ≠ [])
    (texts : List (List Json.Point)) :
    events.foldlM (Assembly.takeEvent endpoint 0) (.behind texts (identifierOf id)) =
      .ok (.behind (texts ++ contents) (identifierOf id)) := by
  induction deltas generalizing texts with
  | nil => simp; rfl
  | @cons event content events contents delta deltas ih =>
      have taken : (Assembly.behind texts (identifierOf id)).takeEvent endpoint 0 event =
          .ok (.behind (texts ++ [content]) (identifierOf id)) := by
        rw [delta.takeEvent bound (nonempty _ List.mem_cons_self) rfl,
          delta.toCarries.providerRequestId, Assembly.behind_or, Assembly.behind_first]
        simp [Assembly.takeReason, Assembly.behind]
      rw [List.foldlM_cons, taken]
      have rest := ih (fun other member => nonempty other (List.mem_cons_of_mem _ member))
        (texts ++ [content])
      rwa [List.append_assoc] at rest

/-- The events of a text with the right model are its answer. -/
theorem StreamEvents.finish {events : List (Dict φ)} {contents : List (List Json.Point)}
    {usage : Value φ} (stream : StreamEvents events id model contents usage)
    (bound : StreamAccepts endpoint model) :
    (events.foldlM (Assembly.takeEvent endpoint 0) .initial >>= fun assembly =>
      Assembly.finish endpoint { assembly with done := true }) =
      answer contents.flatten usage endpoint (some 0) (identifierOf id) := by
  obtain ⟨front, pieces, last, final, total, rfl, rfl, deltas, stop, counts⟩ := stream.events
  have nonempty := stream.nonempty
  have pieced := foldlM_deltas deltas bound
    (fun content member => nonempty content (List.mem_append_left _ member)) []
  have ended : (Assembly.behind pieces (identifierOf id)).takeEvent endpoint 0 last =
      .ok ⟨pieces ++ [final], .null, some 0, true, false, identifierOf id⟩ := by
    rw [stop.takeEvent bound (nonempty _ (by simp)) rfl, stop.toCarries.providerRequestId,
      Assembly.behind_or, Assembly.behind_first]
    rfl
  have counted : (⟨pieces ++ [final], .null, some 0, true, false, identifierOf id⟩ :
      Assembly φ).takeEvent endpoint 0 total =
        .ok ⟨pieces ++ [final], usage, some 0, true, false, identifierOf id⟩ := by
    rw [counts.toCarries.takeEvent bound counts.choices, Assembly.account, counts.usage,
      Assembly.identify, counts.toCarries.providerRequestId]
    cases usage <;> cases identifierOf id <;> rfl
  have begun : (Assembly.initial : Assembly φ) = .behind [] (identifierOf id) := rfl
  have taken : (front ++ [last, total]).foldlM (Assembly.takeEvent endpoint 0) .initial =
      .ok ⟨pieces ++ [final], usage, some 0, true, false, identifierOf id⟩ := by
    rw [List.foldlM_append, begun, pieced]
    show [last, total].foldlM (Assembly.takeEvent endpoint 0)
      (.behind pieces (identifierOf id)) = _
    rw [List.foldlM_cons, ended]
    show [total].foldlM (Assembly.takeEvent endpoint 0) _ = _
    rw [List.foldlM_cons, counted]
    rfl
  rw [taken]
  show Assembly.finish endpoint _ = _
  unfold Assembly.finish
  rw [if_pos (by simp)]

/-- With any other model they are none. -/
theorem StreamEvents.fails {events : List (Dict φ)} {contents : List (List Json.Point)}
    {usage : Value φ} (stream : StreamEvents events id model contents usage)
    (other : ¬ StreamAccepts endpoint model) :
    ∃ code, (events.foldlM (Assembly.takeEvent endpoint 0) .initial >>= fun assembly =>
      Assembly.finish endpoint { assembly with done := true }) =
      .error (.backendFailure (.new code true false)) := by
  obtain ⟨front, pieces, last, final, total, rfl, -, deltas, stop, -⟩ := stream.events
  cases deltas with
  | nil =>
      rw [List.nil_append, List.foldlM_cons, stop.toCarries.takeEvent_other other]
      exact ⟨_, rfl⟩
  | cons delta deltas =>
      rw [List.cons_append, List.foldlM_cons, delta.toCarries.takeEvent_other other]
      exact ⟨_, rfl⟩

/-- A whole body with a model that is not refused is its answer. -/
theorem WholeReply.chatReply {body : Dict φ} {text : List Json.Point} {usage : Value φ}
    (whole : WholeReply body id model text usage) (nonempty : text ≠ [])
    (bound : StreamAccepts endpoint model ∨ NullModel endpoint model) :
    chatReply endpoint body = answer text usage endpoint none (identifierOf id) := by
  obtain ⟨choice, message, listed, stop, messageEq, content⟩ := whole.choice
  unfold AgminaRuntime.chatReply
  split
  · rename_i error found
    exact absurd found (whole.noError error)
  · rw [if_pos (whole.toCarries.replyModelBound.mpr bound), listed]
    cases text with
    | nil => contradiction
    | cons point points =>
        simp only [elements, onlyChoice, attributes, stop, messageEq, content, bind, Except.bind,
          List.length_singleton, ne_eq, not_true_eq_false, if_false, whole.usage,
          whole.toCarries.providerRequestId]
        rfl

theorem WholeReply.chatReply_other {body : Dict φ} {text : List Json.Point} {usage : Value φ}
    (whole : WholeReply body id model text usage)
    (other : ¬ (StreamAccepts endpoint model ∨ NullModel endpoint model)) :
    ∃ code, AgminaRuntime.chatReply endpoint body =
      .error (.backendFailure (.new code true false)) := by
  unfold AgminaRuntime.chatReply
  split
  · rename_i error found
    exact absurd found (whole.noError error)
  · rw [if_neg (mt whole.toCarries.replyModelBound.mp other)]
    exact ⟨_, rfl⟩

/-! ## What an answer may raise -/

theorem unconfirmed_orEmpty (value : Value φ) : Unconfirmed (orEmpty value) := by
  unfold orEmpty
  split
  · split
    · exact raises_ok _
    · exact raises_error rfl
  · exact raises_ok _

theorem unconfirmed_chatTokens (members : Dict φ) : Unconfirmed (chatTokens members) := by
  apply raises_bind (unconfirmed_orEmpty _)
  intro details
  apply raises_bind (unconfirmed_orEmpty _)
  intro outDetails
  apply raises_bind (unconfirmed_nsField _)
  intro prompt
  apply raises_bind (unconfirmed_nsField _)
  intro completion
  apply raises_bind (unconfirmed_nsField _)
  intro cached
  apply raises_bind (unconfirmed_nsField _)
  intro reasoning
  unfold Usage.construct
  split
  · exact raises_ok _
  · exact raises_error rfl

theorem unconfirmed_reportedCost (value : Value φ) : Unconfirmed (reportedCost value) := by
  unfold reportedCost
  split
  · exact raises_ite (raises_ok _) (raises_error rfl)
  · split
    · split
      · exact raises_ok _
      · exact raises_error rfl
    · exact raises_ok _
  · exact raises_ok _

theorem unconfirmed_usageFromChat (usage : Value φ) (endpoint : HttpEndpoint φ) :
    Unconfirmed (usageFromChat usage endpoint) := by
  unfold usageFromChat
  split
  · exact raises_ok _
  · apply raises_bind (unconfirmed_chatTokens _)
    intro counted
    apply raises_bind
    · unfold chatCost
      split
      · exact raises_ok _
      · apply raises_bind (unconfirmed_reportedCost _)
        intro reported
        split <;> exact raises_ok _
    · exact fun cost => raises_ok _
  · exact raises_error rfl

/-- What fails behind a complete answer does not say that the work has ended. -/
theorem unconfirmed_answer (text : List Json.Point) (usage : Value φ)
    (endpoint : HttpEndpoint φ) (first : Option Ns) (identifier : Option RequestId) :
    Unconfirmed (answer text usage endpoint first identifier) := by
  unfold answer
  rw [canonical_answer]
  show Unconfirmed (usageFromChat usage endpoint >>= fun usage =>
    Prediction.construct φ (answerText text) usage first identifier)
  apply raises_bind (unconfirmed_usageFromChat usage endpoint)
  intro counts
  unfold Prediction.construct
  split
  · exact raises_error rfl
  · exact raises_ite (raises_ok _) (raises_error rfl)

/-- Texts that are written alike are answered alike. -/
theorem answer_joinPairs {text other : List Json.Point}
    (same : Json.joinPairs text = Json.joinPairs other) (usage : Value φ)
    (endpoint : HttpEndpoint φ) (first : Option Ns) (identifier : Option RequestId) :
    answer text usage endpoint first identifier = answer other usage endpoint first identifier := by
  unfold answer
  rw [canonical_answer, canonical_answer, ← answerText_joinPairs text, same, answerText_joinPairs]

end Shapes

/-! ## The two replies -/

/-- Both are delivered with one payload, usage and identifier, or both fail and
say the same about the end of the remote work. -/
def Agree : Except PyExc Prediction → Except PyExc Prediction → Prop
  | .ok first, .ok second =>
      first.payloadJson = second.payloadJson ∧ first.usage = second.usage ∧
        first.providerRequestId = second.providerRequestId
  | .error first, .error second => first.terminationKnown = second.terminationKnown
  | _, _ => False

theorem agree_untimed {first second : Except PyExc Prediction} :
    Agree (first.map Prediction.untimed) (second.map Prediction.untimed) ↔ Agree first second := by
  cases first <;> cases second <;> exact Iff.rfl

section

variable {φ : Type} [ComparedFloats φ] (endpoint : HttpEndpoint φ)

/-- The time of the first content does not matter to an answer. -/
theorem agree_answer (text : List Json.Point) (usage : Value φ) (first second : Option Ns)
    (identifier : Option RequestId) :
    Agree (answer text usage endpoint first identifier)
      (answer text usage endpoint second identifier) := by
  unfold answer
  rw [canonical_answer]
  simp only [bind, Except.bind]
  cases usageFromChat usage endpoint with
  | error exception => exact rfl
  | ok counts =>
      unfold Prediction.construct
      cases payloadObject φ (PyStr.ofChars (answerText text)) with
      | error exception => exact rfl
      | ok payload =>
          cases identifier.all RequestId.isPlain with
          | true => exact ⟨rfl, rfl, rfl⟩
          | false => exact rfl

/-- The endpoint with a stream flag of its own. -/
def HttpEndpoint.streaming (flag : Bool) : HttpEndpoint φ := { endpoint with stream := flag }

/-- Bytes within the bound that hold a whole body. -/
def HoldsBody (chunks : List Chunk) (body : Dict φ) : Prop :=
  ∃ text, received chunks = Utf8.encode text ∧
    (received chunks).length ≤ endpoint.maxResponseBytes ∧
    strictJson (PyStr.ofChars text) endpoint.maxResponseBytes = .ok body

/-- Bytes within the bound whose data lines hold the events and a `[DONE]`. -/
def HoldsEvents (chunks : List Chunk) (events : List (Dict φ)) : Prop :=
  ∃ text values, received chunks = Utf8.encode text ∧
    (received chunks).length ≤ endpoint.maxResponseBytes ∧
    dataValues text = values ++ [doneMark] ∧
    List.Forall₂ (fun value event =>
      strictJson (PyStr.ofChars value) endpoint.maxResponseBytes = .ok event) values events

theorem readBody_received {chunks : List Chunk}
    (within : (received chunks).length ≤ endpoint.maxResponseBytes) :
    readBody endpoint chunks = .ok (received chunks) := by
  have general : ∀ raw : List UInt8, (raw ++ received chunks).length ≤ endpoint.maxResponseBytes →
      chunks.foldlM (fun (raw : List UInt8) chunk =>
        if endpoint.maxResponseBytes < (raw ++ chunk.bytes).length then .error responseByteBound
        else .ok (raw ++ chunk.bytes)) raw = (.ok (raw ++ received chunks) :
          Except PyExc (List UInt8)) := by
    clear within
    induction chunks with
    | nil =>
        intro raw _
        simp [received]
        rfl
    | cons chunk chunks ih =>
        intro raw within
        have split : received (chunk :: chunks) = chunk.bytes ++ received chunks := rfl
        rw [split, ← List.append_assoc] at within
        have early : ¬ endpoint.maxResponseBytes < (raw ++ chunk.bytes).length := by
          rw [List.length_append] at within
          omega
        rw [List.foldlM_cons, if_neg early, split, ← List.append_assoc]
        exact ih (raw ++ chunk.bytes) within
  exact general [] within

theorem receiveReply_body (chat : endpoint.kind = .chat) (job : Job) {chunks : List Chunk}
    {body : Dict φ} (holds : HoldsBody endpoint chunks body) (endNs : Ns) :
    receiveReply (endpoint.streaming false) job (.response 200 chunks false endNs) =
      chatReply endpoint body := by
  obtain ⟨text, encoded, within, accepted⟩ := holds
  have raw : readBody (endpoint.streaming false) chunks = .ok (received chunks) :=
    readBody_received (endpoint.streaming false) within
  have decoded : decodeBody (endpoint.streaming false) (received chunks) = .ok body := by
    rw [decodeBody, encoded, Utf8.feed_encode]
    exact accepted
  have kind : (endpoint.streaming false).kind = .chat := chat
  have whole : (endpoint.streaming false).stream = false := rfl
  unfold receiveReply
  simp only [ne_eq, not_true_eq_false, if_false, kind, whole, raw, decoded, bind, Except.bind,
    Bool.false_eq_true, and_false]
  rfl

theorem receiveReply_stream (chat : endpoint.kind = .chat) (job : Job) {chunks : List Chunk}
    {events : List (Dict φ)} (holds : HoldsEvents endpoint chunks events) (endNs : Ns) :
    (receiveReply (endpoint.streaming true) job
        (.response 200 chunks false endNs)).map Prediction.untimed =
      events.foldlM (Assembly.takeEvent endpoint 0) .initial >>= fun assembly =>
        Assembly.finish endpoint { assembly with done := true } := by
  obtain ⟨text, values, encoded, within, split, reads⟩ := holds
  have kind : (endpoint.streaming true).kind = .chat := chat
  have streamed : (endpoint.streaming true).stream = true := rfl
  have received_eq : receiveReply (endpoint.streaming true) job
      (.response 200 chunks false endNs) = streamChat (endpoint.streaming true) chunks endNs := by
    unfold receiveReply
    simp only [ne_eq, not_true_eq_false, if_false, kind, streamed, and_self, if_true,
      Bool.false_eq_true]
  rw [received_eq, streamChat_text (endpoint.streaming true) endNs encoded within, encoded,
    streamBytes_events (endpoint.streaming true) (encoded ▸ within) split reads]
  rfl

/-- A body and a stream that say the same are answered alike, unless they give
the model as `null` where none is required: then the body is delivered and the
stream is a failure that ends the work. -/
theorem reply_agrees_with_stream (chat : endpoint.kind = .chat) (job : Job)
    {plain streamed : List Chunk} {body : Dict φ} {events : List (Dict φ)}
    (plainHolds : HoldsBody endpoint plain body)
    (streamHolds : HoldsEvents endpoint streamed events) {id model : Option (Value φ)}
    {text : List Json.Point} {contents : List (List Json.Point)} {usage : Value φ}
    (nonempty : text ≠ []) (whole : WholeReply body id model text usage)
    (stream : StreamEvents events id model contents usage)
    (same : Json.joinPairs text = Json.joinPairs contents.flatten) (plainEnd streamEnd : Ns) :
    Agree
        (receiveReply (endpoint.streaming false) job (.response 200 plain false plainEnd))
        (receiveReply (endpoint.streaming true) job (.response 200 streamed false streamEnd)) ↔
      ¬ NullModel endpoint model := by
  rw [receiveReply_body endpoint chat job plainHolds, ← agree_untimed,
    receiveReply_stream endpoint chat job streamHolds]
  by_cases bound : StreamAccepts endpoint model
  · have notNull : ¬ NullModel endpoint model := by
      rintro ⟨rfl, -⟩
      simp [StreamAccepts] at bound
    rw [whole.chatReply nonempty (.inl bound), stream.finish bound, answer_untimed,
      answer_joinPairs same]
    exact iff_of_true (agree_answer endpoint _ _ _ _ _) notNull
  · obtain ⟨code, failed⟩ := stream.fails bound
    rw [failed]
    by_cases null : NullModel endpoint model
    · rw [whole.chatReply nonempty (.inr null)]
      apply iff_of_false _ (not_not_intro null)
      have unconfirmed := unconfirmed_answer text usage endpoint none (identifierOf id)
      cases answered : answer text usage endpoint none (identifierOf id) with
      | ok result => exact fun agree => agree
      | error exception =>
          intro agree
          have ended : exception.terminationKnown = true := agree
          have unknown : exception.terminationKnown = false := unconfirmed exception answered
          rw [ended] at unknown
          contradiction
    · obtain ⟨other, refused⟩ := whole.chatReply_other (not_or.mpr ⟨bound, null⟩)
      rw [refused]
      exact iff_of_true rfl null

end

namespace Sample

/-- A body with the answer `ab`. -/
def wholeBody : Dict Json.Verbatim :=
  [(field "choices", .arr [.obj [(field "finish_reason", .str (field "stop")),
      (field "message", .obj [(field "content", .str (field "ab"))])]]),
    (field "model", .str (field "vision"))]

/-- An event with a piece of it. -/
def pieceEvent (content : String) (reason : Value Json.Verbatim) : Dict Json.Verbatim :=
  [(field "choices", .arr [.obj [(field "delta", .obj [(field "content", .str (field content))]),
      (field "finish_reason", reason)]]),
    (field "model", .str (field "vision"))]

/-- An event without a choice. -/
def lastEvent : Dict Json.Verbatim := [(field "model", .str (field "vision"))]

def events : List (Dict Json.Verbatim) :=
  [pieceEvent "a" .null, pieceEvent "b" (.str (field "stop")), lastEvent]

def eventLines : List Char :=
  (events.flatMap fun event => dataMark ++ Json.write Json.asciiInk (.obj event) ++ ['\n']) ++
    dataMark ++ doneMark

theorem clean_pair {depth : Nat} {first second : String} {left right : Value Json.Verbatim}
    (names : field first ≠ field second) (leftClean : Json.Clean depth left)
    (rightClean : Json.Clean depth right) :
    Json.Clean (depth + 1) (.obj [(field first, left), (field second, right)]) := by
  apply Json.Clean.obj (fun _ => Nat.succ_pos depth)
  · simpa using names
  · simp [joined_field]
  · simpa using ⟨leftClean, rightClean⟩

theorem clean_single {depth : Nat} {name : String} {value : Value Json.Verbatim}
    (clean : Json.Clean depth value) : Json.Clean (depth + 1) (.obj [(field name, value)]) := by
  apply Json.Clean.obj (fun _ => Nat.succ_pos depth)
  · simp
  · simp [joined_field]
  · simpa using clean

theorem clean_only {depth : Nat} {value : Value Json.Verbatim} (clean : Json.Clean depth value) :
    Json.Clean (depth + 1) (.arr [value]) :=
  .arr (fun _ => Nat.succ_pos depth) (by simpa using clean)

theorem clean_text (depth : Nat) (text : String) :
    Json.Clean depth (.str (field text) : Value Json.Verbatim) :=
  .str (joined_field text)

theorem clean_wholeBody : Json.Clean maxNesting (.obj wholeBody) :=
  clean_pair (by decide)
    (clean_only (clean_pair (by decide) (clean_text _ _) (clean_single (clean_text _ _))))
    (clean_text _ _)

theorem clean_pieceEvent (content : String) {reason : Value Json.Verbatim}
    (clean : Json.Clean 29 reason) : Json.Clean maxNesting (.obj (pieceEvent content reason)) :=
  clean_pair (by decide)
    (clean_only (clean_pair (by decide) (clean_single (clean_text _ _)) clean)) (clean_text _ _)

theorem clean_lastEvent : Json.Clean maxNesting (.obj lastEvent) := clean_single (clean_text _ _)

theorem clean_events : ∀ event ∈ events, Json.Clean maxNesting (.obj event) := by
  intro event member
  simp only [events, List.mem_cons, List.not_mem_nil, or_false] at member
  obtain rfl | rfl | rfl := member
  · exact clean_pieceEvent "a" .null
  · exact clean_pieceEvent "b" (clean_text _ _)
  · exact clean_lastEvent

/-- What is written is read, within any bound that it fits. -/
theorem strictJson_write {members : Dict Json.Verbatim} {maxBytes : Nat}
    (clean : Json.Clean maxNesting (.obj members))
    (size : encodedSize (Json.write Json.asciiInk (.obj members)) ≤ maxBytes) :
    strictJson (PyStr.ofChars (Json.write Json.asciiInk (.obj members))) maxBytes =
      .ok members :=
  strictJson_ok.mpr ⟨_, PyStr.chars_ofChars _, size, strictObject_write clean⟩

end Sample

/-- A body and a stream of two pieces. -/
theorem reply_agrees_with_stream_pieces :
    let endpoint := Sample.paidEndpoint 1000000 100000 2000000
    Agree
      (receiveReply (endpoint.streaming false) Sample.picturing (.response 200
        [⟨Utf8.encode (Json.write Json.asciiInk (.obj Sample.wholeBody)), 3⟩] false 3))
      (receiveReply (endpoint.streaming true) Sample.picturing (.response 200
        [⟨Utf8.encode Sample.eventLines, 5⟩] false 5)) := by
  intro endpoint
  have plain : HoldsBody endpoint
      [⟨Utf8.encode (Json.write Json.asciiInk (.obj Sample.wholeBody)), 3⟩] Sample.wholeBody :=
    ⟨_, by simp [received], by decide +kernel,
      Sample.strictJson_write Sample.clean_wholeBody (by decide +kernel)⟩
  have streamed : HoldsEvents endpoint [⟨Utf8.encode Sample.eventLines, 5⟩] Sample.events := by
    refine ⟨Sample.eventLines,
      Sample.events.map fun event => Json.write Json.asciiInk (.obj event), by simp [received],
      by decide +kernel, by decide +kernel, ?_⟩
    rw [List.forall₂_map_left_iff, List.forall₂_same]
    intro event member
    have clean : Json.Clean maxNesting (.obj event) := Sample.clean_events event member
    apply Sample.strictJson_write clean
    have sizes : ∀ event ∈ Sample.events, Json.compactSize (.obj event) ≤ 2000000 := by
      decide +kernel
    rw [encodedSize_ascii clean.ascii, Json.length_write]
    exact sizes event member
  have quiet : ∀ {value : Value Json.Verbatim}, value = .null → ∀ error, value ≠ .obj error := by
    intro value null error same
    rw [null] at same
    contradiction
  have whole : WholeReply Sample.wholeBody none (some (.str (field "vision"))) (field "ab")
      .null := ⟨⟨quiet rfl, rfl, rfl⟩, rfl, _, _, rfl, rfl, rfl, rfl⟩
  have pieces : StreamEvents Sample.events none (some (.str (field "vision")))
      [field "a", field "b"] .null := by
    refine ⟨⟨[Sample.pieceEvent "a" .null], [field "a"], Sample.pieceEvent "b" _, field "b",
      Sample.lastEvent, rfl, rfl, .cons ?_ .nil, ?_, ?_⟩, by decide⟩
    · exact ⟨⟨quiet rfl, rfl, rfl⟩, rfl, _, _, rfl, rfl, rfl, rfl⟩
    · exact ⟨⟨quiet rfl, rfl, rfl⟩, rfl, _, _, rfl, rfl, rfl, rfl⟩
    · exact ⟨⟨quiet rfl, rfl, rfl⟩, rfl, rfl⟩
  have named : ¬ NullModel endpoint (some (.str (field "vision"))) := by
    rintro ⟨null, -⟩
    cases null
  exact (reply_agrees_with_stream endpoint rfl Sample.picturing plain streamed (by decide) whole
    pieces (by decide) 3 5).mpr named

end AgminaRuntime
