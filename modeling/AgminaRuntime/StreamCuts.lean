import AgminaRuntime.ChatStream

/-!
# A stream does not depend on its packets

The bytes of a reply are cut anywhere: inside a character, a line break or a
line.  What `_stream_chat` returns is determined by the bytes alone, but for
the time of the first content; and where the bytes are a text within the bound,
so is the failure.
-/

namespace AgminaRuntime

open Json (Value)

/-- A fold that is followed by a map, item by item. -/
theorem foldlM_map {ε σ τ α β : Type} {step : σ → α → Except ε σ} (next : τ → β → Except ε τ)
    {view : σ → τ} (image : α → β)
    (commutes : ∀ state item, (step state item).map view = next (view state) (image item))
    (items : List α) (state : σ) :
    (items.foldlM step state).map view = (items.map image).foldlM next (view state) := by
  induction items generalizing state with
  | nil => rfl
  | cons item items ih =>
      rw [List.foldlM_cons, List.map_cons, List.foldlM_cons, ← commutes]
      cases step state item with
      | error fault => rfl
      | ok after => exact ih after

/-! ## The clock -/

namespace Assembly

variable {φ : Type}

/-- The assembly with every reading of the clock at zero. -/
def untimed (self : Assembly φ) : Assembly φ := { self with first := self.first.map fun _ => 0 }

theorem takeReason_untimed (self : Assembly φ) (reason : Value φ) :
    (self.takeReason reason).map untimed = self.untimed.takeReason reason := by
  cases reason with
  | null => rfl
  | _ =>
      simp only [takeReason]
      split <;> rfl

theorem identify_untimed (self : Assembly φ) (members : Dict φ) :
    (self.identify members).untimed = self.untimed.identify members := rfl

theorem account_untimed (self : Assembly φ) (members : Dict φ) :
    (self.account members).untimed = self.untimed.account members := by
  unfold account
  split <;> rfl

variable [PyFloats φ]

theorem takeContent_untimed (nowNs : Ns) (self : Assembly φ) (content : Value φ) :
    (self.takeContent nowNs content).map untimed = self.untimed.takeContent 0 content := by
  unfold takeContent
  by_cases empty : truthy content = true
  · simp only [if_pos empty]
    cases content with
    | str points =>
        show _ = if self.finished then _ else _
        cases finished : self.finished with
        | true => rfl
        | false => cases first : self.first <;> simp [Except.map, untimed, finished, first]
    | _ => rfl
  · simp only [if_neg empty]
    rfl

theorem takeChoice_untimed (nowNs : Ns) (self : Assembly φ) (choice : Value φ) :
    (self.takeChoice nowNs choice).map untimed = self.untimed.takeChoice 0 choice := by
  unfold takeChoice
  cases attributes choice with
  | error fault => rfl
  | ok members =>
      simp only [bind, Except.bind]
      cases attributes (Dict.getOr members "delta" (.obj [])) with
      | error fault => rfl
      | ok delta =>
          simp only
          rw [← takeContent_untimed nowNs]
          cases self.takeContent nowNs (Dict.get delta "content") with
          | error fault => rfl
          | ok after => exact takeReason_untimed after _

theorem takeChoices_untimed (nowNs : Ns) (self : Assembly φ) (choices : List (Value φ)) :
    (self.takeChoices nowNs choices).map untimed = self.untimed.takeChoices 0 choices := by
  unfold takeChoices
  split
  · rfl
  · rw [foldlM_map (takeChoice 0) id (takeChoice_untimed nowNs), List.map_id]

variable (endpoint : HttpEndpoint φ)

theorem takeEvent_untimed (nowNs : Ns) (self : Assembly φ) (members : Dict φ) :
    (self.takeEvent endpoint nowNs members).map untimed =
      self.untimed.takeEvent endpoint 0 members := by
  unfold takeEvent
  split
  · rfl
  · split
    · cases elements (Dict.getOr members "choices" (.arr [])) with
      | error fault => rfl
      | ok choices =>
          simp only [bind, Except.bind]
          rw [takeChoices_untimed, account_untimed, identify_untimed]
    · rfl

theorem parseLine_untimed (nowNs : Ns) (self : Assembly φ) (line : List Char) :
    (self.parseLine endpoint nowNs line).map untimed =
      self.untimed.parseLine endpoint 0 line := by
  unfold parseLine
  split
  · simp only
    split
    · rfl
    · show _ = if self.done = true then _ else _
      split
      · rfl
      · cases (strictJson (PyStr.ofChars (strip (line.drop 5))) endpoint.maxResponseBytes :
            Except PyExc (Dict φ)) with
        | error fault => rfl
        | ok members => exact takeEvent_untimed endpoint nowNs self members
  · rfl

end Assembly

variable {φ : Type} [PyFloats φ] (endpoint : HttpEndpoint φ)

/-- A prediction with its reading of the clock at zero. -/
def Prediction.untimed (result : Prediction) : Prediction :=
  { result with firstContentNs := result.firstContentNs.map fun _ => 0 }

theorem answer_untimed (text : List Json.Point) (usage : Value φ) (first : Option Ns)
    (requestId : Option RequestId) :
    (answer text usage endpoint first requestId).map Prediction.untimed =
      answer text usage endpoint (first.map fun _ => 0) requestId := by
  unfold answer
  cases canonical (.obj [(field "text", .str text)] : Value φ) with
  | error fault => rfl
  | ok payload =>
      simp only [bind, Except.bind]
      cases usageFromChat usage endpoint with
      | error fault => rfl
      | ok counts =>
          simp only [Prediction.construct]
          cases payloadObject φ (PyStr.ofChars payload) with
          | error fault => rfl
          | ok text => cases requestId.all RequestId.isPlain <;> rfl

theorem Assembly.finish_untimed (self : Assembly φ) :
    (self.finish endpoint).map Prediction.untimed = self.untimed.finish endpoint := by
  unfold finish
  show _ = if self.done && self.finished && !self.text.isEmpty then _ else _
  split
  · exact answer_untimed endpoint _ _ _ _
  · rfl

/-- A piece that is read while the clock shows zero. -/
def Chunk.untimed (chunk : Chunk) : Chunk := ⟨chunk.bytes, 0⟩

namespace StreamReader

def untimed (self : StreamReader φ) : StreamReader φ :=
  { self with assembly := self.assembly.untimed }

theorem parseLines_untimed (nowNs : Ns) (self : Assembly φ) (lines : List (List Char)) :
    (parseLines endpoint nowNs self lines).map Assembly.untimed =
      parseLines endpoint 0 self.untimed lines := by
  unfold parseLines
  rw [foldlM_map (fun self line => self.parseLine endpoint 0 (dropReturns line)) id fun self line =>
    Assembly.parseLine_untimed endpoint nowNs self (dropReturns line), List.map_id]

theorem readChunk_untimed (self : StreamReader φ) (chunk : Chunk) :
    (self.readChunk endpoint chunk).map untimed =
      self.untimed.readChunk endpoint chunk.untimed := by
  show _ = if endpoint.maxResponseBytes < self.size + chunk.bytes.length then _ else _
  unfold readChunk
  simp only
  split
  · rfl
  · simp only [untimed, Chunk.untimed]
    cases Utf8.feed self.pending chunk.bytes with
    | none => rfl
    | some fed =>
        simp only [← parseLines_untimed endpoint chunk.nowNs]
        cases parseLines endpoint chunk.nowNs self.assembly
          (splitLines (self.buffer ++ fed.1)).1 <;> rfl

theorem endStream_untimed (nowNs : Ns) (self : StreamReader φ) :
    (self.endStream endpoint nowNs).map Assembly.untimed = self.untimed.endStream endpoint 0 := by
  unfold endStream
  show _ = if self.pending ≠ [] then _ else if strip self.buffer ≠ [] then _ else _
  split
  · rfl
  · split
    · exact Assembly.parseLine_untimed endpoint nowNs self.assembly (dropReturns self.buffer)
    · rfl

end StreamReader

/-- The clock decides the time of the first content and nothing else. -/
theorem streamChat_untimed (chunks : List Chunk) (endNs : Ns) :
    (streamChat endpoint chunks endNs).map Prediction.untimed =
      streamChat endpoint (chunks.map Chunk.untimed) 0 := by
  unfold streamChat
  have reads := foldlM_map (StreamReader.readChunk endpoint) Chunk.untimed
    (StreamReader.readChunk_untimed endpoint) chunks .initial
  show _ = (chunks.map Chunk.untimed).foldlM _ (StreamReader.untimed .initial) >>= _
  rw [← reads]
  cases chunks.foldlM (StreamReader.readChunk endpoint) .initial with
  | error fault => rfl
  | ok reader =>
      simp only [bind, Except.bind, Except.map]
      rw [← StreamReader.endStream_untimed endpoint endNs]
      cases reader.endStream endpoint endNs with
      | error fault => rfl
      | ok assembly => exact Assembly.finish_untimed endpoint assembly

/-! ## The pieces -/

namespace StreamReader

/-- The reader that a piece leaves, while the clock shows zero. -/
def feed (self : StreamReader φ) (bytes : List UInt8) : Except PyExc (StreamReader φ) :=
  self.readChunk endpoint ⟨bytes, 0⟩

/-- Between two pieces the bound holds and the buffer holds no line. -/
structure Between (reader : StreamReader φ) : Prop where
  within : reader.size ≤ endpoint.maxResponseBytes
  unbroken : ∀ char ∈ reader.buffer, decide (char = '\n') = false

/-- The bytes are a text behind what the reader keeps, within the bound. -/
structure Takes (reader : StreamReader φ) (bytes : List UInt8) : Prop where
  within : reader.size + bytes.length ≤ endpoint.maxResponseBytes
  decodes : (Utf8.feed reader.pending bytes).isSome = true

variable {endpoint}

theorem parseLines_append (self : Assembly φ) (first second : List (List Char)) :
    parseLines endpoint 0 self (first ++ second) =
      parseLines endpoint 0 self first >>= fun after => parseLines endpoint 0 after second :=
  List.foldlM_append

theorem feed_eq {self : StreamReader φ} {bytes : List UInt8} {text : List Char}
    {kept : List UInt8} (within : self.size + bytes.length ≤ endpoint.maxResponseBytes)
    (decoded : Utf8.feed self.pending bytes = some (text, kept)) :
    self.feed endpoint bytes =
      parseLines endpoint 0 self.assembly (splitLines (self.buffer ++ text)).1 >>= fun assembly =>
        .ok ⟨self.size + bytes.length, kept, (splitLines (self.buffer ++ text)).2, assembly⟩ := by
  unfold feed readChunk
  simp only [if_neg (not_lt.mpr within), decoded]
  rfl

theorem takes_of_ok {self after : StreamReader φ} {bytes : List UInt8}
    (fed : self.feed endpoint bytes = .ok after) : self.Takes endpoint bytes := by
  unfold feed readChunk at fed
  simp only at fed
  split at fed
  · contradiction
  · rename_i within
    refine ⟨not_lt.mp within, ?_⟩
    cases decoded : Utf8.feed self.pending bytes with
    | none =>
        rw [decoded] at fed
        contradiction
    | some text => rfl

variable (endpoint) in
/-- What a piece does to a reader that takes it. -/
structure Fed (reader : StreamReader φ) (bytes : List UInt8) (after : StreamReader φ) : Prop where
  within : reader.size + bytes.length ≤ endpoint.maxResponseBytes
  size : after.size = reader.size + bytes.length
  decoded : ∃ text, Utf8.feed reader.pending bytes = some (text, after.pending) ∧
    parseLines endpoint 0 reader.assembly (splitLines (reader.buffer ++ text)).1 =
      .ok after.assembly ∧ after.buffer = (splitLines (reader.buffer ++ text)).2

theorem fed_of_ok {self after : StreamReader φ} {bytes : List UInt8}
    (fed : self.feed endpoint bytes = .ok after) : Fed endpoint self bytes after := by
  have takes := takes_of_ok fed
  obtain ⟨⟨text, kept⟩, decoded⟩ := Option.isSome_iff_exists.mp takes.decodes
  rw [feed_eq takes.within decoded, bind_ok_iff] at fed
  obtain ⟨assembly, parsed, same⟩ := fed
  obtain rfl := Except.ok.inj same
  exact ⟨takes.within, rfl, text, decoded, parsed, rfl⟩

theorem between_of_ok {self after : StreamReader φ} {bytes : List UInt8}
    (fed : self.feed endpoint bytes = .ok after) : after.Between endpoint := by
  obtain ⟨within, size, text, -, -, buffer⟩ := fed_of_ok fed
  refine ⟨by omega, ?_⟩
  rw [buffer]
  exact Lines.unbroken_last _

theorem feed_nil {self : StreamReader φ} (between : self.Between endpoint) :
    self.feed endpoint [] = .ok self := by
  have cut : splitLines (self.buffer ++ []) = ([], self.buffer) := by
    rw [List.append_nil]
    exact Lines.split_unbroken between.unbroken
  have read : Utf8.feed self.pending [] = some ([], self.pending) := rfl
  have within : self.size + ([] : List UInt8).length ≤ endpoint.maxResponseBytes := between.within
  rw [feed_eq within read, cut]
  rfl

/-- A text may be cut in two. -/
theorem feed_append {self : StreamReader φ} {first second : List UInt8}
    (takes : self.Takes endpoint (first ++ second)) :
    self.feed endpoint (first ++ second) =
      self.feed endpoint first >>= fun after => after.feed endpoint second := by
  obtain ⟨within, decodes⟩ := takes
  rw [List.length_append] at within
  rw [Utf8.feed_append] at decodes
  cases early : Utf8.feed self.pending first with
  | none => simp [early] at decodes
  | some fed =>
      obtain ⟨text, kept⟩ := fed
      cases late : Utf8.feed kept second with
      | none => simp [early, late] at decodes
      | some rest =>
          obtain ⟨more, last⟩ := rest
          have whole : Utf8.feed self.pending (first ++ second) = some (text ++ more, last) := by
            simp only [Utf8.feed_append, early, Option.bind_some, late, Option.map_some]
          have cut := @Lines.split_append Char (· = '\n') (self.buffer ++ text) more
          rw [List.append_assoc] at cut
          rw [feed_eq (by rw [List.length_append]; omega) whole, feed_eq (by omega) early]
          unfold splitLines
          rw [cut, parseLines_append]
          cases parseLines endpoint 0 self.assembly
            (Lines.split (· = '\n') (self.buffer ++ text)).1 with
          | error fault => rfl
          | ok assembly =>
              simp only [bind, Except.bind]
              rw [feed_eq (by simp only; omega) late, List.length_append, ← Nat.add_assoc]
              rfl

theorem feed_append_ok {self last : StreamReader φ} {first second : List UInt8} :
    self.feed endpoint (first ++ second) = .ok last ↔
      ∃ after, self.feed endpoint first = .ok after ∧ after.feed endpoint second = .ok last := by
  constructor
  · intro fed
    rwa [feed_append (takes_of_ok fed), bind_ok_iff] at fed
  · rintro ⟨after, early, late⟩
    obtain ⟨-, size, text, decoded, -, -⟩ := fed_of_ok early
    obtain ⟨within, -, more, rest, -, -⟩ := fed_of_ok late
    have takes : self.Takes endpoint (first ++ second) := by
      refine ⟨by rw [List.length_append]; omega, ?_⟩
      simp only [Utf8.feed_append, decoded, Option.bind_some, rest, Option.map_some,
        Option.isSome_some]
    rw [feed_append takes, bind_ok_iff]
    exact ⟨after, early, late⟩

/-- What is read from pieces is what is read from their bytes at once. -/
theorem feed_pieces_ok {self last : StreamReader φ} (between : self.Between endpoint)
    (pieces : List (List UInt8)) :
    pieces.foldlM (feed endpoint) self = .ok last ↔
      self.feed endpoint pieces.flatten = .ok last := by
  induction pieces generalizing self with
  | nil =>
      rw [List.flatten_nil, feed_nil between]
      exact Iff.rfl
  | cons piece pieces ih =>
      rw [List.foldlM_cons, List.flatten_cons, feed_append_ok, bind_ok_iff]
      constructor
      · rintro ⟨after, early, late⟩
        exact ⟨after, early, (ih (between_of_ok early)).mp late⟩
      · rintro ⟨after, early, late⟩
        exact ⟨after, early, (ih (between_of_ok early)).mpr late⟩

/-- A text within the bound is read alike, also where a line fails. -/
theorem feed_pieces {self : StreamReader φ} (between : self.Between endpoint)
    {pieces : List (List UInt8)} (takes : self.Takes endpoint pieces.flatten) :
    pieces.foldlM (feed endpoint) self = self.feed endpoint pieces.flatten := by
  induction pieces generalizing self with
  | nil =>
      rw [List.flatten_nil, feed_nil between]
      rfl
  | cons piece pieces ih =>
      rw [List.flatten_cons] at takes
      rw [List.foldlM_cons, List.flatten_cons, feed_append takes]
      cases early : self.feed endpoint piece with
      | error fault => rfl
      | ok after =>
          obtain ⟨-, size, text, decoded, -, -⟩ := fed_of_ok early
          obtain ⟨within, decodes⟩ := takes
          rw [List.length_append] at within
          simp only [Utf8.feed_append, decoded, Option.bind_some, Option.isSome_map] at decodes
          exact ih (between_of_ok early) ⟨by omega, decodes⟩

theorem between_initial : (StreamReader.initial : StreamReader φ).Between endpoint :=
  ⟨Nat.zero_le _, by simp [StreamReader.initial]⟩

end StreamReader

/-- The bytes of the pieces. -/
def received (chunks : List Chunk) : List UInt8 := (chunks.map Chunk.bytes).flatten

/-- `_stream_chat` on bytes that arrive at once, while the clock shows zero. -/
def streamBytes (bytes : List UInt8) : Except PyExc Prediction :=
  streamChat endpoint [⟨bytes, 0⟩] 0

theorem readChunk_pieces (chunks : List Chunk) (self : StreamReader φ) :
    (chunks.map Chunk.untimed).foldlM (StreamReader.readChunk endpoint) self =
      (chunks.map Chunk.bytes).foldlM (StreamReader.feed endpoint) self := by
  induction chunks generalizing self with
  | nil => rfl
  | cons chunk chunks ih =>
      rw [List.map_cons, List.map_cons, List.foldlM_cons, List.foldlM_cons]
      show self.feed endpoint chunk.bytes >>= _ = _
      cases self.feed endpoint chunk.bytes with
      | error fault => rfl
      | ok after => exact ih after

theorem streamBytes_eq (bytes : List UInt8) :
    streamBytes endpoint bytes =
      (StreamReader.initial.feed endpoint bytes >>= fun reader =>
        reader.endStream endpoint 0 >>= fun assembly => assembly.finish endpoint) := by
  unfold streamBytes streamChat
  rw [List.foldlM_cons, StreamReader.feed]
  cases StreamReader.readChunk endpoint .initial ⟨bytes, 0⟩ <;> rfl

/-- An answer does not depend on the packets. -/
theorem streamChat_ok (chunks : List Chunk) (endNs : Ns) (result : Prediction) :
    (streamChat endpoint chunks endNs).map Prediction.untimed = .ok result ↔
      streamBytes endpoint (received chunks) = .ok result := by
  rw [streamChat_untimed, streamBytes_eq, streamChat, readChunk_pieces, bind_ok_iff, bind_ok_iff]
  simp only [StreamReader.feed_pieces_ok StreamReader.between_initial]
  rfl

/-- Neither does a failure, where the bytes are a text within the bound. -/
theorem streamChat_text {chunks : List Chunk} {text : List Char} (endNs : Ns)
    (encoded : received chunks = Utf8.encode text)
    (within : (received chunks).length ≤ endpoint.maxResponseBytes) :
    (streamChat endpoint chunks endNs).map Prediction.untimed =
      streamBytes endpoint (received chunks) := by
  have takes : (StreamReader.initial : StreamReader φ).Takes endpoint (received chunks) := by
    refine ⟨by rw [StreamReader.initial, Nat.zero_add]; exact within, ?_⟩
    rw [encoded, StreamReader.initial, Utf8.feed_encode]
    rfl
  rw [streamChat_untimed, streamBytes_eq, streamChat, readChunk_pieces,
    StreamReader.feed_pieces StreamReader.between_initial takes]
  rfl

/-- Two outcomes that differ in the time of the first content at most, or in
what went wrong. -/
def Alike : Except PyExc Prediction → Except PyExc Prediction → Prop
  | .ok first, .ok second =>
      first.payloadJson = second.payloadJson ∧ first.usage = second.usage ∧
        first.providerRequestId = second.providerRequestId
  | .error _, .error _ => True
  | _, _ => False

theorem alike_of_ok {first second : Except PyExc Prediction}
    (same : ∀ result, first.map Prediction.untimed = .ok result ↔
      second.map Prediction.untimed = .ok result) : Alike first second := by
  cases first with
  | error fault =>
      cases second with
      | error other => trivial
      | ok result => exact absurd ((same _).mpr rfl) (by simp [Except.map])
  | ok result =>
      have found := (same result.untimed).mp rfl
      cases second with
      | error other => simp [Except.map] at found
      | ok other =>
          have erased : other.untimed = result.untimed := Except.ok.inj found
          have payloads := congrArg Prediction.payloadJson erased
          have usages := congrArg Prediction.usage erased
          have identifiers := congrArg Prediction.providerRequestId erased
          exact ⟨payloads.symm, usages.symm, identifiers.symm⟩

theorem error_of_map {first : Except PyExc Prediction} {fault : PyExc} :
    first.map Prediction.untimed = .error fault ↔ first = .error fault := by
  cases first <;> simp [Except.map]

/-- Two cuttings of the same bytes end alike, and fail with the same exception
where the bytes are a text within the bound. -/
theorem stream_ignores_cuts {first second : List Chunk} (firstEnd secondEnd : Ns)
    (same : received first = received second) :
    Alike (streamChat endpoint first firstEnd) (streamChat endpoint second secondEnd) ∧
      ((∃ text, received first = Utf8.encode text) →
        (received first).length ≤ endpoint.maxResponseBytes → ∀ fault,
          streamChat endpoint first firstEnd = .error fault ↔
            streamChat endpoint second secondEnd = .error fault) := by
  constructor
  · apply alike_of_ok
    intro result
    rw [streamChat_ok, streamChat_ok, same]
  · rintro ⟨text, encoded⟩ within fault
    rw [← error_of_map, streamChat_text endpoint firstEnd encoded within, same,
      ← streamChat_text endpoint secondEnd (same ▸ encoded) (same ▸ within), error_of_map]

/-- A stream at once and byte by byte. -/
theorem stream_ignores_cuts_bytewise :
    let whole := Utf8.encode Sample.streamText
    let bytewise : List Chunk := whole.map fun byte => ⟨[byte], 5⟩
    (streamChat Sample.streaming [⟨whole, 3⟩] 3).isOk = true ∧
      Alike (streamChat Sample.streaming [⟨whole, 3⟩] 3) (streamChat Sample.streaming bytewise 5) ∧
      ((∃ text, received [⟨whole, 3⟩] = Utf8.encode text) →
        (received [⟨whole, 3⟩]).length ≤ Sample.streaming.maxResponseBytes → ∀ fault,
          streamChat Sample.streaming [⟨whole, 3⟩] 3 = .error fault ↔
            streamChat Sample.streaming bytewise 5 = .error fault) := by
  intro whole bytewise
  have same : received [⟨whole, 3⟩] = received bytewise := by
    simp only [received, bytewise, List.map_cons, List.map_nil, List.flatten_cons,
      List.flatten_nil, List.append_nil, List.map_map]
    exact (List.flatMap_singleton' whole).symm
  exact ⟨by decide +kernel, stream_ignores_cuts Sample.streaming 3 5 same⟩

end AgminaRuntime
