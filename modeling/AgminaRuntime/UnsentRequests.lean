import AgminaRuntime.FailedCalls
import AgminaRuntime.HttpBackend
import AgminaRuntime.PythonJson

/-!
# Requests that are never sent

A call that fails before its request is handed to the network should say so.
The first `try` block of `infer` does, whatever a payload holds.  What the HTTP
client does before it sends belongs to the second block: a request that it cannot
make is held like one whose connection was lost.
-/

namespace AgminaRuntime

open Json (Value)

section

variable {φ : Type} [Json.Floats φ]

/-! ## What the first block catches -/

/-- Whatever is raised, the first `except` clause catches. -/
abbrev Caught {α : Type} (tried : Except PyExc α) : Prop :=
  Raises (fun exception => isInvalidPayload exception = true) tried

mutual

theorem caught_check : (value : Value φ) → (depth : Nat) → Caught (check value depth)
  | .null, depth => by
      rw [check]
      split
      · exact raises_error rfl
      · exact raises_ok _
      all_goals simp
  | .bool _, depth => by
      rw [check]
      split
      · exact raises_error rfl
      · exact raises_ok _
      all_goals simp
  | .int _, depth => by
      rw [check]
      split
      · exact raises_error rfl
      · exact raises_ok _
      all_goals simp
  | .str _, depth => by
      rw [check]
      split
      · exact raises_error rfl
      · exact raises_ok _
      all_goals simp
  | .float _, depth => by
      rw [check]
      split
      · exact raises_error rfl
      · split
        · exact raises_ok _
        · exact raises_error rfl
  | .arr items, depth => by
      rw [check]
      split
      · exact raises_error rfl
      · exact caught_checkItems items (depth + 1)
  | .obj members, depth => by
      rw [check]
      split
      · exact raises_error rfl
      · exact caught_checkMembers members (depth + 1)

theorem caught_checkItems : (items : List (Value φ)) → (depth : Nat) →
    Caught (checkItems items depth)
  | [], _ => raises_ok _
  | item :: items, depth =>
      raises_bind (caught_check item depth) fun _ => caught_checkItems items depth

theorem caught_checkMembers : (members : Dict φ) → (depth : Nat) →
    Caught (checkMembers members depth)
  | [], _ => raises_ok _
  | (_, item) :: members, depth =>
      raises_bind (caught_check item depth) fun _ => caught_checkMembers members depth

end

theorem caught_strictObject (text : List Char) :
    Caught (strictObject text : Except PyExc (Dict φ)) := by
  unfold strictObject
  split
  · rename_i fault _
    cases fault <;> exact raises_error rfl
  · exact raises_bind (caught_check _ 0) fun _ => raises_ok _
  · exact raises_error rfl

theorem caught_strictJson (value : PyStr) (maxBytes : Nat) :
    Caught (strictJson value maxBytes : Except PyExc (Dict φ)) := by
  unfold strictJson
  split
  · exact raises_error rfl
  · split
    · exact raises_error rfl
    · exact caught_strictObject _

end

section

variable {φ : Type}

theorem caught_tensorType (value : Value φ) : Caught (tensorType value) := by
  unfold tensorType
  split
  · split
    · exact raises_ok _
    · exact raises_error rfl
  all_goals exact raises_error rfl

theorem caught_hasRole (role : Value φ) : Caught (hasRole role) := by
  unfold hasRole
  split
  · exact raises_ok _
  · exact raises_error rfl
  · exact raises_error rfl
  · exact raises_ok _

theorem caught_inlineImage (item : Dict φ) : Caught (inlineImage item) := by
  unfold inlineImage
  split
  · split
    · split
      · split
        · split
          · exact raises_error rfl
          · split
            · exact raises_error rfl
            · exact raises_ok _
        · exact raises_error rfl
      · exact raises_error rfl
    · exact raises_error rfl
  · exact raises_error rfl

theorem caught_contentImages (parts : List (Value φ)) : Caught (contentImages parts) := by
  fun_induction contentImages parts with
  | case1 => exact raises_ok _
  | case2 item rest isText ih => exact ih
  | case3 item rest notText isImage ih =>
      exact raises_bind (caught_inlineImage item) fun blob =>
        raises_bind ih fun blobs => raises_ok _
  | case4 => exact raises_error rfl
  | case5 => exact raises_error rfl

theorem caught_messageImages (message : Value φ) : Caught (messageImages message) := by
  unfold messageImages
  split
  · split
    · refine raises_bind (caught_hasRole _) fun isRole => ?_
      split
      · split
        · exact raises_ok _
        · exact caught_contentImages _
        · exact raises_error rfl
      · exact raises_error rfl
    · exact raises_error rfl
  · exact raises_error rfl

theorem caught_allImages (messages : List (Value φ)) : Caught (allImages messages) := by
  induction messages with
  | nil => exact raises_ok _
  | cons message rest ih =>
      exact raises_bind (caught_messageImages message) fun blobs =>
        raises_bind ih fun others => raises_ok _

variable [PyFloats φ]

theorem caught_tensorEntry (dtype : TensorType) (value : Value φ) :
    Caught (tensorEntry dtype value) := by
  unfold tensorEntry
  cases dtype with
  | bool =>
      cases value with
      | bool value => exact raises_ok _
      | _ => exact raises_error rfl
  | fp32 | fp64 =>
      cases value with
      | int value =>
          exact raises_ite (raises_ite (raises_error rfl) (raises_ok _)) (raises_error rfl)
      | float value => exact raises_ite (raises_error rfl) (raises_ok _)
      | _ => exact raises_error rfl
  | int32 | int64 | uint8 =>
      cases value with
      | int value => exact raises_ite (raises_ok _) (raises_error rfl)
      | _ => exact raises_error rfl

theorem caught_tensorEntries (dtype : TensorType) (values : List (Value φ)) :
    Caught (tensorEntries dtype values) := by
  induction values with
  | nil => exact raises_ok _
  | cons value rest ih => exact raises_bind (caught_tensorEntry dtype value) fun _ => ih

theorem caught_tensorCheck (tensor : Value φ) : Caught (tensorCheck tensor) := by
  unfold tensorCheck
  split
  · split
    · split
      · split
        · split
          · split
            · split
              · split
                · exact raises_bind (caught_tensorType _) fun dtype => caught_tensorEntries dtype _
                · exact raises_error rfl
              · exact raises_error rfl
            · exact raises_error rfl
          · exact raises_error rfl
        · exact raises_error rfl
      · exact raises_error rfl
    · exact raises_error rfl
  · exact raises_error rfl

theorem caught_tensorChecks (tensors : List (Value φ)) : Caught (tensorChecks tensors) := by
  induction tensors with
  | nil => exact raises_ok _
  | cons tensor rest ih => exact raises_bind (caught_tensorCheck tensor) fun _ => ih

theorem caught_tritonBody (payload : Dict φ) : Caught (tritonBody payload) := by
  unfold tritonBody
  split
  · split
    · exact raises_bind (caught_tensorChecks _) fun _ => raises_ite (raises_ok _) (raises_error rfl)
    · exact raises_error rfl
  · exact raises_error rfl

variable (sha256 : List Base64.Byte → String) (job : Job) (endpoint : HttpEndpoint φ)

theorem caught_validateChat : Caught (validateChat sha256 job endpoint) := by
  unfold validateChat
  refine raises_bind (caught_strictJson _ _) fun body => ?_
  split
  · split
    · split
      · refine raises_bind (caught_allImages _) fun blobs => ?_
        refine raises_ite (raises_error rfl) ?_
        exact raises_bind (caught_strictJson _ _) fun extra => raises_ok _
      · exact raises_error rfl
    · exact raises_error rfl
  · exact raises_error rfl

/-- No payload gets past the first `except` clause. -/
theorem caught_outboundBody : Caught (outboundBody sha256 job endpoint) := by
  unfold outboundBody
  refine raises_bind (caught_strictJson _ _) fun body => ?_
  split
  · exact caught_validateChat sha256 job endpoint
  · exact caught_tritonBody body
  · exact raises_ok _
  · exact raises_error rfl

/-! ## Before anything is sent -/

variable {ω : Type} (encode : Encoder φ ω) (environment : HttpEnvironment)

/-- The request is refused before the client sees it: there is no authorisation,
the credential is missing, or the payload is not one for the endpoint. -/
def Refuses : Prop :=
  (environment.allowNetwork = false ∧ environment.transport = false) ∨
    (∃ exception, credential environment endpoint = .error exception) ∨
      ∃ exception, outboundBody sha256 job endpoint = .error exception

/-- The client raises exceptions of its own, and none of this program's. -/
def Encoder.Foreign (encode : Encoder φ ω) : Prop :=
  ∀ request exception, encode request = .error exception →
    ∀ failure, exception ≠ .backendFailure failure

theorem credential_error {exception : PyExc}
    (raised : credential environment endpoint = .error exception) : exception.notSent = true := by
  unfold credential at raised
  split at raised
  · contradiction
  · split at raised
    · contradiction
    · rw [← Except.error.inj raised]
      rfl

theorem catchInvalid_error {α : Type} {exception : PyExc}
    (invalid : isInvalidPayload exception = true) :
    catchInvalid (.error exception : Except PyExc α) =
      .error (.backendFailure (.new "invalid_outbound_payload" false true)) := by
  rw [catchInvalid, if_pos invalid]

/-- A request that is not refused fails exactly where the client cannot make it. -/
theorem prepare_accepted {secret : Option PyStr} {body : Dict φ}
    (authorised : ¬ (environment.allowNetwork = false ∧ environment.transport = false))
    (named : credential environment endpoint = .ok secret)
    (accepted : outboundBody sha256 job endpoint = .ok body) :
    prepare sha256 encode environment job endpoint =
      catchTransport (encode ⟨job.id, secret, body⟩) := by
  have allowed : ¬ (!environment.allowNetwork && !environment.transport) = true := by
    simpa using authorised
  unfold prepare
  rw [if_neg allowed, named, accepted]
  rfl

theorem prepare_refused (refuses : Refuses sha256 job endpoint environment) {exception : PyExc}
    (raised : prepare sha256 encode environment job endpoint = .error exception) :
    exception.notSent = true := by
  unfold prepare at raised
  split at raised
  · rw [← Except.error.inj raised]
    rfl
  · rename_i allowed
    cases named : credential environment endpoint with
    | error other =>
        rw [named] at raised
        rw [← Except.error.inj raised]
        exact credential_error endpoint environment named
    | ok secret =>
        rw [named] at raised
        cases accepted : outboundBody sha256 job endpoint with
        | error other =>
            have invalid := caught_outboundBody sha256 job endpoint other accepted
            rw [accepted, catchInvalid_error invalid] at raised
            rw [← Except.error.inj raised]
            rfl
        | ok body =>
            rcases refuses with unauthorised | ⟨other, missing⟩ | ⟨other, refused⟩
            · simp [unauthorised.1, unauthorised.2] at allowed
            · rw [named] at missing
              contradiction
            · rw [accepted] at refused
              contradiction

/-- What the client raises does not say that the remote work has ended. -/
theorem prepare_foreign (foreign : encode.Foreign)
    (accepts : ¬ Refuses sha256 job endpoint environment) {exception : PyExc}
    (raised : prepare sha256 encode environment job endpoint = .error exception) :
    exception.terminationKnown = false := by
  cases named : credential environment endpoint with
  | error other => exact absurd (.inr (.inl ⟨other, named⟩)) accepts
  | ok secret =>
      cases accepted : outboundBody sha256 job endpoint with
      | error other => exact absurd (.inr (.inr ⟨other, accepted⟩)) accepts
      | ok body =>
          rw [prepare_accepted sha256 job endpoint encode environment
            (fun unauthorised => accepts (.inl unauthorised)) named accepted] at raised
          cases made : encode ⟨job.id, secret, body⟩ with
          | ok request =>
              rw [made] at raised
              contradiction
          | error other =>
              rw [made, catchTransport] at raised
              split at raised
              · rw [← Except.error.inj raised]
                rfl
              · obtain rfl := Except.error.inj raised
                cases other with
                | backendFailure failure => exact absurd rfl (foreign _ _ made failure)
                | _ => rfl

/-! ## What becomes of the call -/

/-- In every run, a call that is awaited and ends with the exception leaves a
ledger of the kind. -/
def EndsIn (exception : PyExc) (outcome : Ledger → Ledger → Task → Prop) : Prop :=
  ∀ caps steps self jobId task, ((Campaign.fresh caps).run steps).live = some self →
    self.task? jobId .awaiting = some task →
      let before := (Campaign.fresh caps).run steps
      let after := (before.step (.act (.finishTask jobId (.raised exception)))).1
      outcome before.ledger after.ledger task

/-- The attempt of the task has the charge. -/
def Ledger.Charged (ledger : Ledger) (task : Task) (charge : Option Ns) : Prop :=
  ∃ attempt, ledger.attempts.lookup task.job.key = some attempt ∧ attempt.actual = charge

/-- The call is settled at zero, and no pool is quarantined for it. -/
def SettledUnsent (exception : PyExc) : Prop :=
  EndsIn exception fun before after task =>
    after.Charged task (some 0) ∧ after.quarantined = before.quarantined

/-- The charge of the call stays unknown, and its pool is quarantined. -/
def HeldUnsent (exception : PyExc) : Prop :=
  EndsIn exception fun _ after task =>
    after.Charged task none ∧ task.endpoint.pool ∈ after.quarantined

/-- A failed call is settled at what its exception says, and its pool is
quarantined unless the exception says that the remote work has ended. -/
theorem endsIn_failed {exception : PyExc} (survives : exception.endsProcess = false) :
    EndsIn exception fun before after task =>
      after.Charged task exception.settled ∧
        if exception.terminationKnown then after.quarantined = before.quarantined
        else task.endpoint.pool ∈ after.quarantined := by
  intro caps steps self jobId task live found before after
  have sound := Campaign.sound_run caps steps
  have leaves := sound.failedCall live found survives
  obtain ⟨member, -⟩ := Coordinator.task?_some found
  have reservation :
      before.ledger.attempts.lookup (Attempt.reservation task.job task.endpoint).key =
        some (Attempt.reservation task.job task.endpoint) :=
    ((sound.live self live).tasks task member).attempt
  have quarantines := leaves.quarantines
  constructor
  · refine ⟨(Attempt.reservation task.job task.endpoint).settle exception.settled, ?_, rfl⟩
    rw [leaves.attempts]
    exact Ledger.lookup_settleAttempt_self _ reservation
  · split at quarantines
    · rename_i known
      rw [if_pos known, Ledger.quarantined, quarantines]
      rfl
    · rename_i unknown
      rw [if_neg unknown, Ledger.quarantined, quarantines]
      exact before.ledger.mem_quarantined_quarantinePool.mpr (.inl rfl)

theorem settledUnsent_of_notSent {exception : PyExc} (notSent : exception.notSent = true) :
    SettledUnsent exception := by
  have survives : exception.endsProcess = false := by
    cases exception <;> first | rfl | simp [PyExc.notSent] at notSent
  intro caps steps self jobId task live found
  obtain ⟨charged, quarantines⟩ := endsIn_failed survives caps steps self jobId task live found
  rw [PyExc.settled, if_pos notSent] at charged
  rw [if_pos (PyExc.terminationKnown_of_notSent notSent)] at quarantines
  exact ⟨charged, quarantines⟩

theorem heldUnsent_of_unknown {exception : PyExc} (unknown : exception.terminationKnown = false)
    (survives : exception.endsProcess = false) : HeldUnsent exception := by
  have sent : ¬ exception.notSent = true := by
    intro notSent
    rw [PyExc.terminationKnown_of_notSent notSent] at unknown
    contradiction
  intro caps steps self jobId task live found
  obtain ⟨charged, quarantines⟩ := endsIn_failed survives caps steps self jobId task live found
  rw [PyExc.settled, if_neg sent] at charged
  rw [if_neg (by simp [unknown])] at quarantines
  exact ⟨charged, quarantines⟩

/-- A call that fails before anything is sent is settled at zero without a
quarantine exactly where the program itself refused the request.  What the client
could not make is held like a call that may still run. -/
theorem unsent_settled_iff (foreign : encode.Foreign) {exception : PyExc}
    (raised : prepare sha256 encode environment job endpoint = .error exception) :
    ((exception.notSent = true ∧ SettledUnsent exception) ↔
        Refuses sha256 job endpoint environment) ∧
      (¬ Refuses sha256 job endpoint environment → exception.endsProcess = false →
        HeldUnsent exception) := by
  constructor
  · constructor
    · rintro ⟨notSent, -⟩
      by_contra accepts
      have unknown :=
        prepare_foreign sha256 job endpoint encode environment foreign accepts raised
      rw [PyExc.terminationKnown_of_notSent notSent] at unknown
      contradiction
    · intro refuses
      have notSent := prepare_refused sha256 job endpoint encode environment refuses raised
      exact ⟨notSent, settledUnsent_of_notSent notSent⟩
  · intro accepts survives
    exact heldUnsent_of_unknown
      (prepare_foreign sha256 job endpoint encode environment foreign accepts raised) survives

end

namespace Sample

/-- A client that writes the body in UTF-8. -/
def encode (request : HttpRequest Json.Verbatim) : Except PyExc (List Char) :=
  match PyStr.chars ⟨Json.write Json.plainInk (.obj request.body)⟩ with
  | some text => .ok text
  | none => .error .unicodeEncodeError

theorem encode_error {request : HttpRequest Json.Verbatim} {exception : PyExc}
    (raised : encode request = .error exception) : exception = .unicodeEncodeError := by
  unfold encode at raised
  split at raised
  · contradiction
  · exact (Except.error.inj raised).symm

theorem foreign_encode : Encoder.Foreign encode := by
  intro request exception raised failure
  rw [encode_error raised]
  simp

/-- A message of half a surrogate pair. -/
def halved : Dict Json.Verbatim :=
  [(field "messages", .arr [.obj [(field "content", .str [0xD800]),
    (field "role", .str (field "user"))]])]

def halving : Job where
  toJobFields := zeroFields (String.ofList (Json.write Json.asciiInk (.obj halved)))
  valid := violation_zeroFields _

theorem clean_halved : Json.Clean maxNesting (.obj halved) := by
  have joined : Json.Joined [0xD800] := .singleton _
  have message : Json.Clean (maxNesting - 1 - 1) (.obj [(field "content", .str [0xD800]),
      (field "role", .str (field "user"))] : Value Json.Verbatim) := by
    apply Json.Clean.obj (fun _ => by decide) (by decide) (by simp [joined_field])
    simpa using ⟨.str joined, .str (joined_field "user")⟩
  have messages : Json.Clean (maxNesting - 1) (.arr [.obj [(field "content", .str [0xD800]),
      (field "role", .str (field "user"))]] : Value Json.Verbatim) :=
    .arr (fun _ => by decide) (by simpa using message)
  rw [halved]
  apply Json.Clean.obj (fun _ => by decide) (by simp) (by simp [joined_field])
  simpa using messages

theorem payload_halving : (halving.payload : Except PyExc (Dict Json.Verbatim)) = .ok halved :=
  payload_of_written rfl clean_halved (by decide +kernel)

end Sample

/-- The client cannot write the message, and the call is held. -/
theorem unsent_settled_iff_halved :
    HeldUnsent (.backendFailure (.new "transport_failure" false false)) := by
  let endpoint := Sample.paidEndpoint 1000000 100000 2000000
  have checked : ((outboundBody Sample.zeroDigest Sample.halving endpoint).toOption.any fun body =>
      !(Sample.encode ⟨Sample.halving.id, none, body⟩).isOk) = true := by
    rw [outboundBody, Sample.payload_halving]
    show ((validateChat _ _ _).toOption.any _) = true
    rw [validateChat, Sample.payload_halving, show endpoint.extraBodyJson = PyStr.ofString "{}"
      from rfl, strictJson_empty (by decide)]
    decide +kernel
  obtain ⟨body, accepted, fails⟩ := toOption_any checked
  have accepts : ¬ Refuses Sample.zeroDigest Sample.halving endpoint
      ⟨true, false, fun _ => none⟩ := by
    rintro (⟨closed, -⟩ | ⟨exception, missing⟩ | ⟨exception, refused⟩)
    · contradiction
    · contradiction
    · rw [accepted] at refused
      contradiction
  have raised : prepare Sample.zeroDigest Sample.encode ⟨true, false, fun _ => none⟩
      Sample.halving endpoint =
        .error (.backendFailure (.new "transport_failure" false false)) := by
    rw [prepare_accepted _ _ _ _ _ (by simp) rfl accepted]
    cases made : Sample.encode ⟨Sample.halving.id, none, body⟩ with
    | ok request => simp [made, Except.isOk, Except.toBool] at fails
    | error exception => rw [Sample.encode_error made]; rfl
  exact (unsent_settled_iff Sample.zeroDigest Sample.halving endpoint Sample.encode
    ⟨true, false, fun _ => none⟩ Sample.foreign_encode raised).2 accepts rfl

end AgminaRuntime
