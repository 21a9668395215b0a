import AgminaRuntime.StreamCuts

/-!
# Only complete streams are delivered

What is known of the bytes of a stream that is answered: its data lines are
events and then `[DONE]` lines, the events belong to one whole completion, and
the answer is the content of the events in order.
-/

namespace AgminaRuntime

open Json (Value)

/-- The values of the data lines of a text. -/
def dataValues (text : List Char) : List (List Char) :=
  ((((splitLines text).1 ++ [(splitLines text).2]).map dropReturns).filter
    dataMark.isPrefixOf).map fun line => strip (line.drop 5)

section

variable {φ : Type}

/-- The choices of an event. -/
def eventChoices (event : Dict φ) : List (Value φ) :=
  match elements (Dict.getOr event "choices" (.arr [])) with
  | .ok items => items
  | .error _ => []

/-- `choice["delta"]["content"]`, if there is one. -/
def deltaContent (choice : Value φ) : Value φ := memberOf (memberOf choice "delta") "content"

def finishReason (choice : Value φ) : Value φ := memberOf choice "finish_reason"

/-- The event carries the stop marker. -/
def Stops (event : Dict φ) : Prop :=
  ∃ choice ∈ eventChoices event, finishReason choice = .str (field "stop")

/-! ## A choice -/

theorem isText_iff {value : Value φ} {text : PyStr} :
    isText value text = true ↔ value = .str text.points := by
  cases value <;> simp [isText]

theorem attributes_ok {value : Value φ} {members : Dict φ} :
    attributes value = .ok members ↔ value = .obj members := by
  cases value <;> simp [attributes]

theorem deltaContent_eq {choice : Value φ} {members delta : Dict φ}
    (shape : choice = .obj members) (inner : Dict.getOr members "delta" (.obj []) = .obj delta) :
    deltaContent choice = Dict.get delta "content" := by
  subst shape
  show memberOf (Dict.get members "delta") "content" = _
  unfold Dict.getOr at inner
  unfold Dict.get at *
  cases found : members.lookup (field "delta") with
  | none =>
      rw [found] at inner
      cases inner
      rfl
  | some value =>
      rw [found] at inner
      obtain rfl : value = .obj delta := inner
      rfl

theorem takeReason_ok {self after : Assembly φ} {reason : Value φ}
    (taken : self.takeReason reason = .ok after) :
    (reason = .null ∧ after = self) ∨
      (reason = .str (field "stop") ∧ after = { self with finished := true }) := by
  cases reason with
  | null => exact .inl ⟨rfl, (Except.ok.inj taken).symm⟩
  | _ =>
      simp only [Assembly.takeReason] at taken
      split at taken
      · rename_i stop
        exact .inr ⟨isText_iff.mp stop, (Except.ok.inj taken).symm⟩
      · contradiction

theorem Assembly.account_fields (self : Assembly φ) (members : Dict φ) :
    (self.account members).text = self.text ∧ (self.account members).finished = self.finished ∧
      (self.account members).done = self.done := by
  unfold account
  split <;> exact ⟨rfl, rfl, rfl⟩

variable [PyFloats φ]

/-- The contents of an event that are not empty. -/
def eventContents (event : Dict φ) : List (Value φ) :=
  ((eventChoices event).map deltaContent).filter truthy

/-- The events of one completion whose contents are the given texts. -/
structure Completion (endpoint : HttpEndpoint φ) (events : List (Dict φ))
    (texts : List (List Json.Point)) : Prop where
  noError : ∀ event ∈ events, ∀ error, Dict.get event "error" ≠ .obj error
  model : ∀ event ∈ events,
    Dict.get event "model" = .str endpoint.modelName.points ∨
      Dict.has event "model" = false ∧ endpoint.responseModelRequired = false
  single : ∀ event ∈ events, (eventChoices event).length ≤ 1
  reasons : ∀ event ∈ events, ∀ choice ∈ eventChoices event,
    finishReason choice = .null ∨ finishReason choice = .str (field "stop")
  ordered : events.Pairwise fun earlier later => Stops earlier → eventContents later = []
  contents : events.flatMap eventContents = texts.map .str
  nonempty : ∀ text ∈ texts, text ≠ []

/-- The bytes of a complete stream and what they say. -/
structure CompleteStream (endpoint : HttpEndpoint φ) (bytes : List UInt8) (result : Prediction) :
    Prop where
  within : bytes.length ≤ endpoint.maxResponseBytes
  data : ∃ text values events count texts, bytes = Utf8.encode text ∧
    dataValues text = values ++ List.replicate count doneMark ∧ 0 < count ∧
    List.Forall₂ (fun value event =>
      strictJson (PyStr.ofChars value) endpoint.maxResponseBytes = .ok event) values events ∧
    Completion endpoint events texts ∧ (∃ event ∈ events, Stops event) ∧ texts.flatten ≠ [] ∧
    canonical (.obj [(field "text", .str texts.flatten)] : Value φ) =
      .ok result.payloadJson.toList

namespace Assembly

/-- What the content of a choice adds to the text. -/
theorem takeContent_ok {nowNs : Ns} {self after : Assembly φ} {content : Value φ}
    (taken : self.takeContent nowNs content = .ok after) :
    ∃ texts : List (List Json.Point), [content].filter truthy = texts.map .str ∧
      (∀ text ∈ texts, text ≠ []) ∧ after.text = self.text ++ texts ∧
        (texts ≠ [] → self.finished = false) ∧ after.finished = self.finished ∧
          after.done = self.done := by
  unfold takeContent at taken
  by_cases empty : truthy content = true
  · rw [if_pos empty] at taken
    cases content with
    | str points =>
        simp only at taken
        split at taken
        · contradiction
        · rename_i running
          obtain rfl := Except.ok.inj taken
          refine ⟨[points], by simp [empty], ?_, rfl, fun _ => by simpa using running, rfl, rfl⟩
          intro text member
          obtain rfl := List.mem_singleton.mp member
          simpa [truthy] using empty
    | _ => contradiction
  · rw [if_neg empty] at taken
    obtain rfl := Except.ok.inj taken
    exact ⟨[], by simp [empty], by simp, by simp, by simp, rfl, rfl⟩

/-- What a choice does to the assembly. -/
structure ChoiceTaken (before : Assembly φ) (choice : Value φ) (texts : List (List Json.Point))
    (after : Assembly φ) : Prop where
  contents : [deltaContent choice].filter truthy = texts.map .str
  nonempty : ∀ text ∈ texts, text ≠ []
  text : after.text = before.text ++ texts
  running : texts ≠ [] → before.finished = false
  reason : finishReason choice = .null ∧ after.finished = before.finished ∨
    finishReason choice = .str (field "stop") ∧ after.finished = true
  done : after.done = before.done

theorem takeChoice_ok {nowNs : Ns} {self after : Assembly φ} {choice : Value φ}
    (taken : self.takeChoice nowNs choice = .ok after) :
    ∃ texts, ChoiceTaken self choice texts after := by
  unfold takeChoice at taken
  simp only [bind_ok_iff, attributes_ok] at taken
  obtain ⟨members, shape, delta, inner, middle, content, reason⟩ := taken
  obtain ⟨texts, contents, nonempty, text, running, finished, done⟩ := takeContent_ok content
  rw [← deltaContent_eq shape inner] at contents
  have ending : finishReason choice = Dict.get members "finish_reason" := by
    rw [shape]
    rfl
  refine ⟨texts, contents, nonempty, ?_, running, ?_, ?_⟩
  all_goals rcases takeReason_ok reason with ⟨null, rfl⟩ | ⟨stop, rfl⟩
  · exact text
  · exact text
  · exact .inl ⟨ending.trans null, finished⟩
  · exact .inr ⟨ending.trans stop, rfl⟩
  · exact done
  · exact done

/-! ## An event -/

/-- What an event does to the assembly. -/
structure EventTaken (endpoint : HttpEndpoint φ) (before : Assembly φ) (event : Dict φ)
    (texts : List (List Json.Point)) (after : Assembly φ) : Prop where
  noError : ∀ error, Dict.get event "error" ≠ .obj error
  model : Dict.get event "model" = .str endpoint.modelName.points ∨
    Dict.has event "model" = false ∧ endpoint.responseModelRequired = false
  single : (eventChoices event).length ≤ 1
  reasons : ∀ choice ∈ eventChoices event,
    finishReason choice = .null ∨ finishReason choice = .str (field "stop")
  contents : eventContents event = texts.map .str
  nonempty : ∀ text ∈ texts, text ≠ []
  text : after.text = before.text ++ texts
  running : texts ≠ [] → before.finished = false
  finished : after.finished = true ↔ before.finished = true ∨ Stops event
  done : after.done = before.done

theorem streamModelBound_iff {endpoint : HttpEndpoint φ} {event : Dict φ} :
    streamModelBound endpoint event = true ↔
      Dict.get event "model" = .str endpoint.modelName.points ∨
        Dict.has event "model" = false ∧ endpoint.responseModelRequired = false := by
  unfold streamModelBound
  cases present : Dict.has event "model" with
  | true => simp [isText_iff]
  | false =>
      have absent : Dict.get event "model" = .null := by
        rw [Dict.has, Option.isSome_eq_false_iff, Option.isNone_iff_eq_none] at present
        rw [Dict.get, present]
        rfl
      simp [absent]

theorem takeEvent_ok {endpoint : HttpEndpoint φ} {nowNs : Ns} {self after : Assembly φ}
    {event : Dict φ} (taken : self.takeEvent endpoint nowNs event = .ok after) :
    ∃ texts, EventTaken endpoint self event texts after := by
  unfold takeEvent at taken
  split at taken
  · contradiction
  · rename_i noError
    split at taken
    · rename_i bound
      rw [bind_ok_iff] at taken
      obtain ⟨choices, listed, taken⟩ := taken
      have same : eventChoices event = choices := by rw [eventChoices, listed]
      obtain ⟨text, finished, done⟩ := account_fields (self.identify event) event
      unfold takeChoices at taken
      split at taken
      · contradiction
      · rename_i single
        cases choices with
        | nil =>
            obtain rfl := Except.ok.inj taken
            refine ⟨[], fun error found => noError error found, streamModelBound_iff.mp bound,
              by simp [same], by simp [same], by simp [eventContents, same], by simp, ?_, by simp,
              ?_, done⟩
            · rw [text, List.append_nil]
              rfl
            · rw [finished]
              simp [Stops, same, identify]
        | cons choice choices =>
            obtain rfl : choices = [] := by
              rw [List.length_cons] at single
              exact List.length_eq_zero_iff.mp (by omega)
            rw [List.foldlM_cons, bind_ok_iff] at taken
            obtain ⟨middle, taken, rest⟩ := taken
            obtain rfl := Except.ok.inj rest
            obtain ⟨texts, choiceTaken⟩ := takeChoice_ok taken
            refine ⟨texts, fun error found => noError error found, streamModelBound_iff.mp bound,
              by simp [same], ?_, ?_, choiceTaken.nonempty, ?_, ?_, ?_, choiceTaken.done.trans done⟩
            · rw [same]
              intro other member
              obtain rfl := List.mem_singleton.mp member
              exact choiceTaken.reason.imp And.left And.left
            · rw [eventContents, same]
              exact choiceTaken.contents
            · rw [choiceTaken.text, text]
              rfl
            · intro some
              rw [← choiceTaken.running some, finished]
              rfl
            · have before :
                  ((self.identify event).account event).finished = self.finished := finished
              rcases choiceTaken.reason with ⟨null, unchanged⟩ | ⟨stop, marked⟩
              · rw [unchanged, before]
                simp [Stops, same, null]
              · simp [marked, Stops, same, stop]
    · contradiction

end Assembly

theorem flatMap_snoc {α β : Type} (f : α → List β) (items : List α) (last : α) :
    (items ++ [last]).flatMap f = items.flatMap f ++ f last := by
  simp

/-- An event that is taken belongs to the completion. -/
theorem Completion.snoc {endpoint : HttpEndpoint φ} {self after : Assembly φ}
    {events : List (Dict φ)} {event : Dict φ} {texts : List (List Json.Point)}
    (completion : Completion endpoint events self.text)
    (stopped : self.finished = true ↔ ∃ event ∈ events, Stops event)
    (taken : Assembly.EventTaken endpoint self event texts after) :
    Completion endpoint (events ++ [event]) after.text where
  noError := by
    rw [List.forall_mem_append]
    exact ⟨completion.noError, by simpa using taken.noError⟩
  model := by
    rw [List.forall_mem_append]
    exact ⟨completion.model, by simpa using taken.model⟩
  single := by
    rw [List.forall_mem_append]
    exact ⟨completion.single, by simpa using taken.single⟩
  reasons := by
    rw [List.forall_mem_append]
    exact ⟨completion.reasons, by simpa using taken.reasons⟩
  ordered := by
    rw [List.pairwise_append]
    refine ⟨completion.ordered, List.pairwise_singleton _ _, ?_⟩
    intro earlier listed later last stops
    obtain rfl := List.mem_singleton.mp last
    have finished := stopped.mpr ⟨earlier, listed, stops⟩
    rw [taken.contents, List.map_eq_nil_iff]
    by_contra some
    rw [taken.running some] at finished
    contradiction
  contents := by
    rw [flatMap_snoc, completion.contents, taken.contents, taken.text, List.map_append]
  nonempty := by
    rw [taken.text, List.forall_mem_append]
    exact ⟨completion.nonempty, taken.nonempty⟩

/-! ## Lines -/

/-- What the assembly knows of the values of the data lines that were parsed. -/
def Progress (endpoint : HttpEndpoint φ) (values : List (List Char)) (self : Assembly φ) : Prop :=
  ∃ read events count, values = read ++ List.replicate count doneMark ∧
    (self.done = true ↔ 0 < count) ∧
    List.Forall₂ (fun value event =>
      strictJson (PyStr.ofChars value) endpoint.maxResponseBytes = .ok event) read events ∧
    Completion endpoint events self.text ∧
    (self.finished = true ↔ ∃ event ∈ events, Stops event)

/-- The value of a line that is a data line. -/
def lineValues (line : List Char) : List (List Char) :=
  if dataMark.isPrefixOf line then [strip (line.drop 5)] else []

theorem progress_initial (endpoint : HttpEndpoint φ) :
    Progress endpoint [] (.initial : Assembly φ) := by
  refine ⟨[], [], 0, rfl, by simp [Assembly.initial], .nil, ⟨?_, ?_, ?_, ?_, ?_, ?_, ?_⟩, ?_⟩ <;>
    simp [Assembly.initial]

theorem progress_parseLine {endpoint : HttpEndpoint φ} {values : List (List Char)} {nowNs : Ns}
    {self after : Assembly φ} {line : List Char} (progress : Progress endpoint values self)
    (parsed : self.parseLine endpoint nowNs line = .ok after) :
    Progress endpoint (values ++ lineValues line) after := by
  obtain ⟨read, events, count, split, done, reads, completion, stopped⟩ := progress
  unfold Assembly.parseLine at parsed
  unfold lineValues
  split at parsed
  · rename_i isData
    rw [if_pos isData]
    simp only at parsed
    split at parsed
    · rename_i mark
      obtain rfl := Except.ok.inj parsed
      refine ⟨read, events, count + 1, ?_, by simp, reads, completion, stopped⟩
      rw [mark, split, List.append_assoc, ← List.replicate_succ']
    · split at parsed
      · contradiction
      · rename_i open_
        rw [bind_ok_iff] at parsed
        obtain ⟨event, accepted, parsed⟩ := parsed
        obtain ⟨texts, taken⟩ := Assembly.takeEvent_ok parsed
        have none : count = 0 := by
          have := mt done.mpr open_
          omega
        subst none
        refine ⟨read ++ [strip (line.drop 5)], events ++ [event], 0, ?_, ?_, ?_,
          completion.snoc stopped taken, ?_⟩
        · rw [split, List.replicate_zero, List.append_nil, List.append_nil]
        · rw [taken.done]
          exact done
        · exact List.rel_append reads (.cons accepted .nil)
        · rw [taken.finished, stopped]
          simp [or_and_right, exists_or]
  · rename_i other
    obtain rfl := Except.ok.inj parsed
    rw [if_neg other, List.append_nil]
    exact ⟨read, events, count, split, done, reads, completion, stopped⟩

theorem progress_parseLines {endpoint : HttpEndpoint φ} {values : List (List Char)} {nowNs : Ns}
    {self after : Assembly φ} {lines : List (List Char)} (progress : Progress endpoint values self)
    (parsed : StreamReader.parseLines endpoint nowNs self lines = .ok after) :
    Progress endpoint (values ++ lines.flatMap fun line => lineValues (dropReturns line))
      after := by
  induction lines generalizing self values with
  | nil =>
      obtain rfl := Except.ok.inj parsed
      rwa [List.flatMap_nil, List.append_nil]
  | cons line lines ih =>
      unfold StreamReader.parseLines at parsed
      rw [List.foldlM_cons, bind_ok_iff] at parsed
      obtain ⟨middle, first, rest⟩ := parsed
      have whole := ih (progress_parseLine progress first) rest
      rwa [List.append_assoc] at whole

/-! ## The whole stream -/

/-- A blank rest is no data line. -/
theorem lineValues_blank {buffer : List Char} (blank : strip buffer = []) :
    lineValues (dropReturns buffer) = [] := by
  unfold lineValues
  split
  · rename_i isData
    obtain ⟨rest, split⟩ := List.isPrefixOf_iff_prefix.mp isData
    have member : 'd' ∈ dropReturns buffer := by
      rw [← split]
      simp [dataMark]
    have inBuffer : 'd' ∈ buffer := (List.rdropWhile_prefix _ buffer).subset member
    exact absurd (strip_eq_nil.mp blank 'd' inBuffer) (by decide)
  · rfl

theorem dataValues_eq (text : List Char) :
    dataValues text =
      ((splitLines text).1.flatMap fun line => lineValues (dropReturns line)) ++
        lineValues (dropReturns (splitLines text).2) := by
  have each : ∀ lines : List (List Char),
      (((lines.map dropReturns).filter dataMark.isPrefixOf).map fun line => strip (line.drop 5)) =
        lines.flatMap fun line => lineValues (dropReturns line) := by
    intro lines
    induction lines with
    | nil => rfl
    | cons line lines ih =>
        rw [List.map_cons, List.filter_cons, List.flatMap_cons, ← ih, lineValues]
        split <;> rfl
  rw [dataValues, each, List.flatMap_append, List.flatMap_singleton]

theorem Assembly.finish_ok {endpoint : HttpEndpoint φ} {self : Assembly φ} {result : Prediction}
    (finished : self.finish endpoint = .ok result) :
    self.done = true ∧ self.finished = true ∧ self.text ≠ [] ∧
      answer self.text.flatten self.usage endpoint self.first self.requestId = .ok result := by
  unfold finish at finished
  split at finished
  · rename_i complete
    simp only [Bool.and_eq_true, Bool.not_eq_true', List.isEmpty_eq_false_iff] at complete
    exact ⟨complete.1.1, complete.1.2, complete.2, finished⟩
  · contradiction

/-- Whatever is delivered is a complete stream and says what its events say. -/
theorem stream_delivers_complete {endpoint : HttpEndpoint φ} {chunks : List Chunk} {endNs : Ns}
    {result : Prediction} (returned : streamChat endpoint chunks endNs = .ok result) :
    CompleteStream endpoint (received chunks) result := by
  have erased : (streamChat endpoint chunks endNs).map Prediction.untimed = .ok result.untimed := by
    rw [returned]
    rfl
  rw [streamChat_ok, streamBytes_eq, bind_ok_iff] at erased
  obtain ⟨reader, fed, ended⟩ := erased
  rw [bind_ok_iff] at ended
  obtain ⟨assembly, last, finished⟩ := ended
  obtain ⟨within, -, text, decoded, parsed, buffer⟩ := StreamReader.fed_of_ok fed
  have lines : splitLines ((StreamReader.initial : StreamReader φ).buffer ++ text) =
      splitLines text := rfl
  rw [lines] at parsed buffer
  have early := progress_parseLines (progress_initial endpoint) parsed
  unfold StreamReader.endStream at last
  split at last
  · contradiction
  rename_i whole
  rw [not_not] at whole
  have progress : Progress endpoint (dataValues text) assembly := by
    rw [dataValues_eq]
    split at last
    · rw [buffer] at last
      exact progress_parseLine early last
    · rename_i blank
      rw [not_not, buffer] at blank
      obtain rfl := Except.ok.inj last
      rw [lineValues_blank blank, List.append_nil]
      exact early
  obtain ⟨values, events, count, split, done, reads, completion, stopped⟩ := progress
  obtain ⟨isDone, isFinished, nonempty, answered⟩ := Assembly.finish_ok finished
  obtain ⟨counts, -, -, -, same⟩ := answer_ok.mp answered
  rw [whole] at decoded
  refine ⟨by simpa [StreamReader.initial] using within, text, values, events, count,
    assembly.text, Utf8.feed_iff.mp decoded, split, done.mp isDone, reads, completion,
    stopped.mp isFinished, ?_, ?_⟩
  · obtain ⟨first, member⟩ := List.exists_mem_of_ne_nil _ nonempty
    intro empty
    exact completion.nonempty first member (List.flatten_eq_nil_iff.mp empty first member)
  · have payload := congrArg Prediction.payloadJson same
    have unchanged :
        result.payloadJson = String.ofList (answerText assembly.text.flatten) := payload
    rw [unchanged, canonical_answer, String.toList_ofList]

end

/-- The stream with one event. -/
theorem stream_delivers_complete_sample :
    ∃ result, streamChat Sample.streaming [⟨Utf8.encode Sample.streamText, 3⟩] 3 = .ok result ∧
      CompleteStream Sample.streaming (received [⟨Utf8.encode Sample.streamText, 3⟩]) result := by
  obtain ⟨result, returned⟩ := isOk_exists (by decide +kernel :
    (streamChat Sample.streaming [⟨Utf8.encode Sample.streamText, 3⟩] 3).isOk = true)
  exact ⟨result, returned, stream_delivers_complete returned⟩

end AgminaRuntime
