import AgminaRuntime.CanonicalForm

/-!
# Load plans

A load item states the rules of a job anew, with milliseconds for nanoseconds,
and derives the identifiers, the times and the deadline of its observations and
its job.  What it does not state again decides whether the job can be built: the
length of a derived identifier and the range of the times.
-/

namespace AgminaRuntime

open Json (Floats LawfulFloats compactSize)

/-- `LoadItem`, validated. -/
structure LoadItem (φ : Type) [Floats φ] where
  id : Name
  session : Name
  model : Name
  workload : Workload
  releaseMs : Nat
  deadlineAfterMs : Nat
  profileCaptureLagMs : Nat
  resultKind : ResultKind
  maxAgeMs : Option Nat
  evidenceHashes : List Sha
  observationIds : Option (List Name)
  operation : Name
  replaceKey : Option Name
  discardable : Bool
  cacheable : Bool
  payloadJson : PyStr
  releaseBounded : releaseMs ≤ 3600000
  deadlineBounded : 0 < deadlineAfterMs ∧ deadlineAfterMs ≤ 300000
  lagBounded : profileCaptureLagMs ≤ 300000
  ageBounded : ∀ age ∈ maxAgeMs, 0 < age ∧ age ≤ 300000
  hashesBounded : 1 ≤ evidenceHashes.length ∧ evidenceHashes.length ≤ 32
  payloadValid : ∃ members : Dict φ, strictJson payloadJson maxJsonBytes = .ok members
  currentBound : resultKind ≠ .historical → maxAgeMs ≠ none
  idsMatch : ∀ ids ∈ observationIds, ids.length = evidenceHashes.length ∧ ids.Nodup
  replaceDiscards : replaceKey.isSome = true → discardable = true
  policyKept : workload = .policy → discardable = false ∧ cacheable = false
  cacheHistorical : cacheable = true → resultKind = .historical

/-- `LoadPlan`, validated. -/
structure LoadPlan (φ : Type) [Floats φ] where
  jobs : List (LoadItem φ)
  bounded : 1 ≤ jobs.length ∧ jobs.length ≤ 2000
  unique : (jobs.map LoadItem.id).Nodup

/-- A field `Ns`. -/
def nsOf (value : Nat) : Option Ns :=
  if bounded : value < 2 ^ 63 then some ⟨value, bounded⟩ else none

theorem nsOf_eq_some_iff {value : Nat} {ns : Ns} : nsOf value = some ns ↔ ns.val = value := by
  unfold nsOf
  constructor
  · intro read
    split at read
    · rw [← Option.some.inj read]
    · contradiction
  · rintro rfl
    rw [dif_pos ns.isLt]

theorem isName_local : isName "local" = true := by decide

/-- The default of `allowed_sites`. -/
def defaultSites : List Name :=
  [⟨"local", isName_local⟩, ⟨"site", by decide⟩, ⟨"cloud", by decide⟩]

namespace LoadItem

variable {φ : Type} [Floats φ] (item : LoadItem φ)

/-- The identifier of the observation at a place. -/
def observationName (place : Nat) : String :=
  match item.observationIds with
  | some ids => (ids.map Name.text).getD place ""
  | none => item.id.text ++ "-o" ++ toString place

/-- `base+item.release_ms*1_000_000` -/
def releaseNs (base : Ns) : Nat := base.val + item.releaseMs * 1000000

/-- `max(0,release-item.profile_capture_lag_ms*1_000_000)` -/
def captureNs (base : Ns) : Nat := item.releaseNs base - item.profileCaptureLagMs * 1000000

/-- `release+item.deadline_after_ms*1_000_000` -/
def deadlineNs (base : Ns) : Nat := item.releaseNs base + item.deadlineAfterMs * 1000000

/-- The observation at a place. -/
def observation (base : Ns) (place : Nat) (sha : Sha) : Except PyExc Observation :=
  match Name.parse (item.observationName place), nsOf place, nsOf (item.captureNs base),
    nsOf (item.releaseNs base) with
  | some id, some sequence, some capture, some available =>
      if ordered : capture ≤ available then
        .ok ⟨⟨id, item.session, sequence, sha, capture, available, 0, some "load-replay",
          by simp only [Option.mem_def, Option.some.injEq, forall_eq']; decide, ordered⟩,
          .current⟩
      else .error (.validationError "Observation")
  | _, _, _, _ => .error (.validationError "Observation")

/-- The observations from a place on. -/
def observationsFrom (base : Ns) : Nat → List Sha → Except PyExc (List Observation)
  | _, [] => .ok []
  | place, sha :: hashes => do
      let observation ← item.observation base place sha
      let observations ← observationsFrom base (place + 1) hashes
      pure (observation :: observations)

/-- `item.max_age_ms*1_000_000 if item.max_age_ms else None` -/
def maxAgeNs : Option (Option Ns) :=
  match item.maxAgeMs with
  | none => some none
  | some age => (nsOf (age * 1000000)).map some

/-- The typed fields of the job of an item. -/
def fields (tenant : Name) (session : Session) (base : Ns) (observations : List Observation) :
    Option JobFields := do
  let snapshotNs ← nsOf (item.releaseNs base)
  let deadlineNs ← nsOf (item.deadlineNs base)
  let maxAgeNs ← item.maxAgeNs
  pure
    { id := item.id
      tenant := tenant
      sessionId := session.id
      epoch := session.epoch
      taskRevision := session.taskRevision
      clockId := session.clockId
      model := item.model
      operation := item.operation
      workload := item.workload
      resultKind := item.resultKind
      observations := observations
      snapshotNs := snapshotNs
      deadlineNs := deadlineNs
      maxAgeNs := maxAgeNs
      maxUncertaintyNs := 0
      priority := 1
      allowedSites := defaultSites
      dependencies := []
      payloadJson := ""
      replaceKey := item.replaceKey
      discardable := item.discardable
      cacheable := item.cacheable }

/-- The job that `run_load` builds from an item. -/
def job (tenant : Name) (session : Session) (base : Ns) : Except PyExc Job := do
  let observations ← item.observationsFrom base 0 item.evidenceHashes
  match item.fields tenant session base observations with
  | some fields => fields.construct φ item.payloadJson
  | none => .error (.validationError "Job")

/-! ## When the job can be built -/

/-- The times are in the range of `Ns`. -/
def TimesFit (base : Ns) : Prop := item.deadlineNs base < 2 ^ 63

/-- The derived identifiers are not too long. -/
def NamesFit : Prop :=
  item.observationIds = none → ∀ place < item.evidenceHashes.length,
    item.id.text.length + 2 + (Nat.toDigits 10 place).length ≤ 160

/-- The canonical payload is within the byte bound. -/
def PayloadFits : Prop :=
  ∀ members : Dict φ, strictJson item.payloadJson maxJsonBytes = .ok members →
    compactSize (.obj members) ≤ maxJsonBytes

/-- Where two items of a session name one observation, they state the same. -/
def Agrees (base : Ns) (item other : LoadItem φ) : Prop :=
  item.session = other.session → ∀ place sha otherPlace otherSha,
    item.evidenceHashes[place]? = some sha → other.evidenceHashes[otherPlace]? = some otherSha →
      item.observationName place = other.observationName otherPlace →
        place = otherPlace ∧ sha = otherSha ∧ item.releaseMs = other.releaseMs ∧
          item.captureNs base = other.captureNs base

end LoadItem

/-- The plan can be carried out from a base time on. -/
structure LoadPlan.Fits {φ : Type} [Floats φ] (plan : LoadPlan φ) (base : Ns) : Prop where
  times : ∀ item ∈ plan.jobs, item.TimesFit base
  names : ∀ item ∈ plan.jobs, item.NamesFit
  payloads : ∀ item ∈ plan.jobs, item.PayloadFits
  evidence : ∀ item ∈ plan.jobs, ∀ other ∈ plan.jobs, item.Agrees base other

/-! ## Building a job -/

section

variable {φ : Type} [Floats φ]

theorem payloadObject_of_accepted {payload : PyStr} {members : Dict φ}
    (accepted : strictJson payload maxJsonBytes = .ok members) :
    ∃ text, payloadObject φ payload = .ok text := by
  obtain ⟨chars, -, -, object⟩ := strictJson_ok.mp accepted
  have written := canonical_of_clean (clean_of_strictObject object)
  rw [payloadObject, accepted]
  simp only [bind, Except.bind, written]
  exact ⟨_, rfl⟩

theorem JobFields.construct_of_valid {fields : JobFields} {payload : PyStr} {text : String}
    (read : payloadObject φ payload = .ok text)
    (valid : JobFields.violation { fields with payloadJson := text } = none) :
    fields.construct φ payload = .ok ⟨{ fields with payloadJson := text }, valid⟩ := by
  have validated := Job.validate_toJobFields ⟨{ fields with payloadJson := text }, valid⟩
  rw [construct, read]
  simp only [validated]

end

/-! ## Derived identifiers -/

theorem isNameChar_of_isDigit {char : Char} (digit : char.isDigit = true) :
    isNameChar char = true := by
  simp [isNameChar, Char.isAlphanum, digit]

theorem isName_length {text : String} (valid : isName text = true) : text.length ≤ 160 := by
  unfold isName at valid
  split at valid
  · contradiction
  · rename_i first rest same
    simp only [Bool.and_eq_true, decide_eq_true_eq] at valid
    rw [← String.length_toList, same, List.length_cons]
    omega

/-- A name with a suffix is a name as long as it is not too long. -/
theorem isName_append {text suffix : String} (valid : isName text = true)
    (chars : ∀ char ∈ suffix.toList, isNameChar char = true) :
    isName (text ++ suffix) = true ↔ text.length + suffix.length ≤ 160 := by
  constructor
  · intro both
    rw [← String.length_append]
    exact isName_length both
  · intro short
    unfold isName at valid ⊢
    rw [String.toList_append]
    split at valid
    · contradiction
    · rename_i first rest same
      rw [← String.length_toList, same, List.length_cons, ← String.length_toList] at short
      simp only [Bool.and_eq_true, decide_eq_true_eq] at valid
      rw [same, List.cons_append]
      simp only [Bool.and_eq_true, decide_eq_true_eq, List.all_append, List.all_eq_true,
        List.length_append]
      exact ⟨⟨valid.1.1, List.all_eq_true.mp valid.1.2, chars⟩, by omega⟩

theorem toList_toString (value : Nat) : (toString value).toList = Nat.toDigits 10 value := by
  rw [Nat.toString_eq_repr, Nat.repr, String.toList_ofList]

theorem suffix_chars (place : Nat) :
    ∀ char ∈ ("-o" ++ toString place).toList, isNameChar char = true := by
  intro char member
  rw [String.toList_append, List.mem_append, toList_toString] at member
  rcases member with dash | digit
  · have spelled : "-o".toList = ['-', 'o'] := rfl
    rw [spelled, List.mem_cons, List.mem_singleton] at dash
    rcases dash with rfl | rfl
    · rfl
    · rfl
  · exact isNameChar_of_isDigit (Nat.isDigit_of_mem_toDigits (by decide) (by decide) digit)

theorem Name.parse_eq_some_iff {text : String} {name : Name} :
    Name.parse text = some name ↔ name.text = text := by
  unfold Name.parse
  constructor
  · intro read
    split at read
    · rw [← Option.some.inj read]
    · contradiction
  · rintro rfl
    rw [dif_pos name.valid]

theorem Name.parse_isSome_iff {text : String} :
    (∃ name, Name.parse text = some name) ↔ isName text = true := by
  constructor
  · rintro ⟨name, read⟩
    rw [← Name.parse_eq_some_iff.mp read]
    exact name.valid
  · intro valid
    exact ⟨⟨text, valid⟩, Name.parse_eq_some_iff.mpr rfl⟩

namespace LoadItem

variable {φ : Type} [Floats φ] {item : LoadItem φ} {base : Ns}

theorem observationName_some {ids : List Name} (given : item.observationIds = some ids)
    {place : Nat} (small : place < item.evidenceHashes.length) :
    ∃ id, ids[place]? = some id ∧ item.observationName place = id.text := by
  have length := (item.idsMatch ids given).1
  refine ⟨ids[place], List.getElem?_eq_getElem (by omega), ?_⟩
  simp only [observationName, given]
  rw [List.getD_eq_getElem?_getD, List.getElem?_map, List.getElem?_eq_getElem (by omega)]
  rfl

theorem namesFit_iff :
    item.NamesFit ↔
      ∀ place < item.evidenceHashes.length, isName (item.observationName place) = true := by
  cases given : item.observationIds with
  | some ids =>
      apply iff_of_true
      · intro none_
        rw [given] at none_
        contradiction
      · intro place small
        obtain ⟨id, -, same⟩ := observationName_some given small
        rw [same]
        exact id.valid
  | none =>
      have each : ∀ place, isName (item.observationName place) = true ↔
          item.id.text.length + 2 + (Nat.toDigits 10 place).length ≤ 160 := by
        intro place
        have joined := isName_append item.id.valid (suffix_chars place)
        have length : ("-o" ++ toString place).length = 2 + (Nat.toDigits 10 place).length := by
          rw [String.length_append, ← String.length_toList (s := toString place), toList_toString]
          rfl
        simp only [observationName, given]
        rw [String.append_assoc, joined, length]
        omega
      simp only [NamesFit, given, true_imp_iff, each]

/-- Each place has its own identifier. -/
theorem observationName_inj {place other : Nat} (small : place < item.evidenceHashes.length)
    (otherSmall : other < item.evidenceHashes.length)
    (same : item.observationName place = item.observationName other) : place = other := by
  cases given : item.observationIds with
  | some ids =>
      obtain ⟨id, found, idText⟩ := observationName_some given small
      obtain ⟨second, otherFound, secondText⟩ := observationName_some given otherSmall
      obtain rfl : id = second := by
        apply Name.eq_of_text
        rw [← idText, ← secondText, same]
      obtain ⟨length, distinct⟩ := item.idsMatch ids given
      exact (List.Nodup.getElem_inj_iff distinct).mp
        ((List.getElem_eq_iff (by omega)).mpr found |>.trans
          ((List.getElem_eq_iff (by omega)).mpr otherFound).symm)
  | none =>
      simp only [observationName, given] at same
      have digits := congrArg String.toList same
      simp only [String.toList_append, toList_toString, List.append_cancel_left_eq] at digits
      have value := congrArg (fun text => Nat.ofDigitChars 10 text 0) digits
      simpa only [Nat.ofDigitChars_toDigits (show 1 < 10 by decide) (by decide)] using value

/-! ## The observations of an item -/

/-- The observation at a place is the one that the item states. -/
structure States (item : LoadItem φ) (base : Ns) (place : Nat) (sha : Sha) (o : Observation) :
    Prop where
  id : o.id.text = item.observationName place
  source : o.source = item.session
  sequence : o.sequence.val = place
  sha256 : o.sha256 = sha
  captureNs : o.captureNs.val = item.captureNs base
  availableNs : o.availableNs.val = item.releaseNs base
  uncertaintyNs : o.uncertaintyNs = 0
  sourceTime : o.sourceTime = some "load-replay"
  role : o.role = .current

theorem observation_ok {place : Nat} {sha : Sha} {o : Observation}
    (built : item.observation base place sha = .ok o) : item.States base place sha o := by
  unfold observation at built
  split at built
  · rename_i id sequence capture available idEq sequenceEq captureEq availableEq
    split at built
    · rw [← Except.ok.inj built]
      exact
        { id := Name.parse_eq_some_iff.mp idEq
          source := rfl
          sequence := nsOf_eq_some_iff.mp sequenceEq
          sha256 := rfl
          captureNs := nsOf_eq_some_iff.mp captureEq
          availableNs := nsOf_eq_some_iff.mp availableEq
          uncertaintyNs := rfl
          sourceTime := rfl
          role := rfl }
    · contradiction
  · contradiction

theorem observation_exists {place : Nat} (small : place < 2 ^ 63) (sha : Sha)
    (name : isName (item.observationName place) = true) (time : item.releaseNs base < 2 ^ 63) :
    ∃ o, item.observation base place sha = .ok o := by
  obtain ⟨id, idEq⟩ := Name.parse_isSome_iff.mpr name
  have earlier : item.captureNs base ≤ item.releaseNs base := Nat.sub_le _ _
  have sequenceEq : nsOf place = some ⟨place, small⟩ := nsOf_eq_some_iff.mpr rfl
  have captureEq : nsOf (item.captureNs base) = some ⟨item.captureNs base, by omega⟩ :=
    nsOf_eq_some_iff.mpr rfl
  have availableEq : nsOf (item.releaseNs base) = some ⟨item.releaseNs base, time⟩ :=
    nsOf_eq_some_iff.mpr rfl
  rw [observation, idEq, sequenceEq, captureEq, availableEq]
  simp only
  rw [dif_pos (Fin.le_def.mpr earlier)]
  exact ⟨_, rfl⟩

theorem observationsFrom_ok {place : Nat} {hashes : List Sha} {observations : List Observation}
    (built : item.observationsFrom base place hashes = .ok observations) :
    observations.length = hashes.length ∧
      ∀ offset o, observations[offset]? = some o →
        ∃ sha, hashes[offset]? = some sha ∧ item.States base (place + offset) sha o := by
  induction hashes generalizing place observations with
  | nil =>
      obtain rfl := Except.ok.inj built
      simp
  | cons sha hashes ih =>
      obtain ⟨first, firstBuilt, built⟩ := bind_ok_iff.mp built
      obtain ⟨others, othersBuilt, same⟩ := bind_ok_iff.mp built
      obtain rfl := Except.ok.inj same
      obtain ⟨length, each⟩ := ih othersBuilt
      constructor
      · simp [length]
      · intro offset o found
        cases offset with
        | zero =>
            obtain rfl : first = o := by simpa using found
            exact ⟨sha, rfl, observation_ok firstBuilt⟩
        | succ offset =>
            obtain ⟨sha, shaFound, states⟩ := each offset o (by simpa using found)
            rw [Nat.add_assoc, Nat.add_comm 1] at states
            exact ⟨sha, by simpa using shaFound, states⟩

theorem observationsFrom_exists {place : Nat} {hashes : List Sha}
    (small : place + hashes.length ≤ 2 ^ 63) (time : item.releaseNs base < 2 ^ 63)
    (names : ∀ other, place ≤ other → other < place + hashes.length →
      isName (item.observationName other) = true) :
    ∃ observations, item.observationsFrom base place hashes = .ok observations := by
  induction hashes generalizing place with
  | nil => exact ⟨[], rfl⟩
  | cons sha hashes ih =>
      rw [List.length_cons] at small names
      obtain ⟨first, firstBuilt⟩ := observation_exists (by omega) sha
        (names place le_rfl (by omega)) time
      have later : ∃ others, item.observationsFrom base (place + 1) hashes = .ok others :=
        ih (by omega) fun other lower upper => names other (by omega) (by omega)
      obtain ⟨others, othersBuilt⟩ := later
      refine ⟨first :: others, ?_⟩
      rw [observationsFrom, firstBuilt, othersBuilt]
      rfl

/-! ## The job of an item -/

theorem fields_eq_some_iff {tenant : Name} {session : Session} {observations : List Observation} :
    (∃ fields, item.fields tenant session base observations = some fields) ↔
      item.TimesFit base := by
  have earlier : item.releaseNs base ≤ item.deadlineNs base := Nat.le_add_right _ _
  have age : ∃ maxAge, item.maxAgeNs = some maxAge := by
    unfold maxAgeNs
    split
    · exact ⟨none, rfl⟩
    · rename_i age given
      have bound := (item.ageBounded age given).2
      have read : nsOf (age * 1000000) = some ⟨age * 1000000, by omega⟩ :=
        nsOf_eq_some_iff.mpr rfl
      rw [read]
      exact ⟨_, rfl⟩
  constructor
  · rintro ⟨fields, built⟩
    simp only [LoadItem.fields, Option.bind_eq_bind, Option.bind_eq_some_iff] at built
    obtain ⟨snapshot, -, deadline, deadlineEq, -⟩ := built
    rw [TimesFit, ← nsOf_eq_some_iff.mp deadlineEq]
    exact deadline.isLt
  · intro fits
    obtain ⟨maxAge, maxAgeEq⟩ := age
    have snapshotEq : nsOf (item.releaseNs base) =
        some ⟨item.releaseNs base, lt_of_le_of_lt earlier fits⟩ := nsOf_eq_some_iff.mpr rfl
    have deadlineEq : nsOf (item.deadlineNs base) = some ⟨item.deadlineNs base, fits⟩ :=
      nsOf_eq_some_iff.mpr rfl
    rw [LoadItem.fields, snapshotEq, deadlineEq, maxAgeEq]
    exact ⟨_, rfl⟩

/-- What the fields of a job take over from the item. -/
structure Fills (item : LoadItem φ) (tenant : Name) (session : Session) (base : Ns)
    (observations : List Observation) (fields : JobFields) : Prop where
  id : fields.id = item.id
  tenant : fields.tenant = tenant
  sessionId : fields.sessionId = session.id
  model : fields.model = item.model
  workload : fields.workload = item.workload
  resultKind : fields.resultKind = item.resultKind
  observations : fields.observations = observations
  snapshotNs : fields.snapshotNs.val = item.releaseNs base
  deadlineNs : fields.deadlineNs.val = item.deadlineNs base
  maxAgeNs : fields.maxAgeNs = none → item.maxAgeMs = none
  maxUncertaintyNs : fields.maxUncertaintyNs = 0
  allowedSites : fields.allowedSites = defaultSites
  dependencies : fields.dependencies = []
  replaceKey : fields.replaceKey = item.replaceKey
  discardable : fields.discardable = item.discardable
  cacheable : fields.cacheable = item.cacheable

theorem fields_some {tenant : Name} {session : Session} {observations : List Observation}
    {fields : JobFields} (built : item.fields tenant session base observations = some fields) :
    item.Fills tenant session base observations fields := by
  simp only [LoadItem.fields, Option.bind_eq_bind, Option.bind_eq_some_iff, Option.pure_def,
    Option.some.injEq] at built
  obtain ⟨snapshot, snapshotEq, deadline, deadlineEq, maxAge, maxAgeEq, rfl⟩ := built
  refine
    { id := rfl
      tenant := rfl
      sessionId := rfl
      model := rfl
      workload := rfl
      resultKind := rfl
      observations := rfl
      snapshotNs := nsOf_eq_some_iff.mp snapshotEq
      deadlineNs := nsOf_eq_some_iff.mp deadlineEq
      maxAgeNs := ?_
      maxUncertaintyNs := rfl
      allowedSites := rfl
      dependencies := rfl
      replaceKey := rfl
      discardable := rfl
      cacheable := rfl }
  rintro rfl
  unfold maxAgeNs at maxAgeEq
  split at maxAgeEq
  · assumption
  · simp at maxAgeEq

/-- The observations are those that the item states, each at its place. -/
def StatesAll (item : LoadItem φ) (base : Ns) (observations : List Observation) : Prop :=
  observations.length = item.evidenceHashes.length ∧
    ∀ place o, observations[place]? = some o →
      ∃ sha, item.evidenceHashes[place]? = some sha ∧ item.States base place sha o

theorem statesAll_of_built {observations : List Observation}
    (built : item.observationsFrom base 0 item.evidenceHashes = .ok observations) :
    item.StatesAll base observations := by
  obtain ⟨length, each⟩ := observationsFrom_ok built
  refine ⟨length, fun place o found => ?_⟩
  obtain ⟨sha, shaFound, states⟩ := each place o found
  rw [Nat.zero_add] at states
  exact ⟨sha, shaFound, states⟩

theorem StatesAll.of_mem {observations : List Observation}
    (states : item.StatesAll base observations) {o : Observation} (listed : o ∈ observations) :
    ∃ place sha, item.evidenceHashes[place]? = some sha ∧ item.States base place sha o := by
  obtain ⟨place, small, rfl⟩ := List.mem_iff_getElem.mp listed
  obtain ⟨sha, found, own⟩ := states.2 place _ (List.getElem?_eq_getElem small)
  exact ⟨place, sha, found, own⟩

theorem StatesAll.distinct {observations : List Observation}
    (states : item.StatesAll base observations) : (observations.map fun o => o.id).Nodup := by
  rw [List.nodup_iff_injective_getElem]
  intro first second same
  have firstSmall := first.isLt
  have secondSmall := second.isLt
  simp only [List.length_map, states.1] at firstSmall secondSmall
  obtain ⟨sha, found, own⟩ := states.2 first.val observations[first.val]
    (List.getElem?_eq_getElem _)
  obtain ⟨otherSha, otherFound, other⟩ := states.2 second.val observations[second.val]
    (List.getElem?_eq_getElem _)
  simp only [List.getElem_map] at same
  apply Fin.ext
  apply observationName_inj firstSmall secondSmall
  rw [← own.id, ← other.id, same]

/-- What an item states passes the checks of a job. -/
theorem Fills.valid {tenant : Name} {session : Session} {observations : List Observation}
    {fields : JobFields} (fills : item.Fills tenant session base observations fields)
    (states : item.StatesAll base observations) (payload : String) :
    JobFields.violation { fields with payloadJson := payload } = none := by
  have length := states.1
  have some_ : observations ≠ [] := by
    intro empty
    have least := item.hashesBounded.1
    rw [← length, empty] at least
    contradiction
  have later : ¬ fields.deadlineNs ≤ fields.snapshotNs := by
    have positive := item.deadlineBounded.1
    rw [Fin.le_def, fills.deadlineNs, fills.snapshotNs, LoadItem.deadlineNs]
    omega
  have available : ¬ ∃ o ∈ observations, fields.snapshotNs < o.availableNs := by
    rintro ⟨o, listed, late⟩
    obtain ⟨place, sha, -, own⟩ := states.of_mem listed
    rw [Fin.lt_def, fills.snapshotNs, own.availableNs] at late
    omega
  have certain : ¬ ∃ o ∈ observations, fields.maxUncertaintyNs < o.uncertaintyNs := by
    rintro ⟨o, listed, more⟩
    obtain ⟨place, sha, -, own⟩ := states.of_mem listed
    rw [fills.maxUncertaintyNs, own.uncertaintyNs] at more
    exact lt_irrefl _ more
  have bounded : ¬ (fields.resultKind ≠ .historical ∧
      (fields.maxAgeNs = none ∨ ¬ ∃ o ∈ observations, o.role = .current)) := by
    rintro ⟨current, missing | absent⟩
    · rw [fills.resultKind] at current
      exact item.currentBound current (fills.maxAgeNs missing)
    · obtain ⟨o, listed⟩ := List.exists_mem_of_ne_nil _ some_
      obtain ⟨place, sha, -, own⟩ := states.of_mem listed
      exact absent ⟨o, listed, own.role⟩
  have replace : ¬ (fields.replaceKey.isSome = true ∧ ¬ fields.discardable = true) := by
    rintro ⟨key, keeps⟩
    rw [fills.replaceKey] at key
    rw [fills.discardable] at keeps
    exact keeps (item.replaceDiscards key)
  have policy : ¬ (fields.workload = .policy ∧
      (fields.discardable = true ∨ fields.cacheable = true)) := by
    rintro ⟨own, dropped⟩
    rw [fills.workload] at own
    rw [fills.discardable, fills.cacheable] at dropped
    have kept := item.policyKept own
    rw [kept.1, kept.2] at dropped
    simp at dropped
  have cache : ¬ (fields.cacheable = true ∧ fields.resultKind ≠ .historical) := by
    rintro ⟨cached, current⟩
    rw [fills.cacheable] at cached
    rw [fills.resultKind] at current
    exact current (item.cacheHistorical cached)
  have few := item.hashesBounded.2
  simp only [JobFields.violation, fills.observations, fills.dependencies, fills.allowedSites]
  rw [if_neg (by simp; omega), if_neg (by simp [some_]), if_neg later,
    if_neg (not_not.mpr states.distinct), if_neg available, if_neg certain, if_neg bounded,
    if_neg replace, if_neg policy, if_neg cache, if_neg (by decide), if_neg (by simp)]

/-- The job that was built from an item. -/
structure Builds (item : LoadItem φ) (tenant : Name) (session : Session) (base : Ns) (job : Job) :
    Prop where
  states : item.StatesAll base job.observations
  fills : item.Fills tenant session base job.observations job.toJobFields
  payload : ∃ members : Dict φ, strictJson item.payloadJson maxJsonBytes = .ok members ∧
    job.payloadJson = String.ofList (Json.write Json.asciiInk (Json.sortKeys (.obj members)))

theorem job_ok {tenant : Name} {session : Session} {job : Job}
    (built : item.job tenant session base = .ok job) : item.Builds tenant session base job := by
  obtain ⟨observations, observed, built⟩ := bind_ok_iff.mp built
  split at built
  · rename_i fields fieldsEq
    obtain ⟨text, read, same⟩ := JobFields.construct_ok built
    obtain ⟨members, accepted, rfl⟩ := payloadObject_ok read
    have fills := fields_some fieldsEq
    have listed : job.observations = observations := by
      rw [same]
      exact fills.observations
    constructor
    · rw [listed]
      exact statesAll_of_built observed
    · rw [listed, same]
      exact { fills with }
    · exact ⟨members, accepted, by rw [same]⟩
  · contradiction

theorem job_exists_iff {tenant : Name} {session : Session} :
    (∃ job, item.job tenant session base = .ok job) ↔ item.TimesFit base ∧ item.NamesFit := by
  constructor
  · rintro ⟨job, built⟩
    obtain ⟨observations, observed, built⟩ := bind_ok_iff.mp built
    split at built
    · rename_i fields fieldsEq
      refine ⟨fields_eq_some_iff.mp ⟨fields, fieldsEq⟩, namesFit_iff.mpr fun place small => ?_⟩
      obtain ⟨length, each⟩ := statesAll_of_built observed
      obtain ⟨sha, -, states⟩ := each place _ (List.getElem?_eq_getElem (by omega))
      rw [← states.id]
      exact Name.valid _
    · contradiction
  · rintro ⟨times, names⟩
    have earlier : item.releaseNs base ≤ item.deadlineNs base := Nat.le_add_right _ _
    have few := item.hashesBounded.2
    have observes : ∃ observations,
        item.observationsFrom base 0 item.evidenceHashes = .ok observations :=
      observationsFrom_exists (by omega) (lt_of_le_of_lt earlier times)
        fun place _ small => namesFit_iff.mp names place (by omega)
    obtain ⟨observations, observed⟩ := observes
    have fits : ∃ fields, item.fields tenant session base observations = some fields :=
      fields_eq_some_iff.mpr times
    obtain ⟨fields, fieldsEq⟩ := fits
    obtain ⟨members, accepted⟩ := item.payloadValid
    obtain ⟨text, payload⟩ := payloadObject_of_accepted accepted
    have valid := (fields_some fieldsEq).valid (statesAll_of_built observed) text
    refine ⟨⟨_, valid⟩, bind_ok_iff.mpr ⟨observations, observed, ?_⟩⟩
    rw [fieldsEq]
    exact JobFields.construct_of_valid payload valid

theorem Agrees.symm {other : LoadItem φ} (agrees : item.Agrees base other) :
    other.Agrees base item := by
  intro same place sha otherPlace otherSha found otherFound sameName
  obtain ⟨samePlace, sameSha, release, capture⟩ :=
    agrees same.symm otherPlace otherSha place sha otherFound found sameName.symm
  exact ⟨samePlace.symm, sameSha.symm, release.symm, capture.symm⟩

theorem agrees_self (item : LoadItem φ) : item.Agrees base item := by
  intro _ place sha otherPlace otherSha found otherFound sameName
  obtain rfl := observationName_inj (List.getElem?_eq_some_iff.mp found).1
    (List.getElem?_eq_some_iff.mp otherFound).1 sameName
  exact ⟨rfl, Option.some.inj (found.symm.trans otherFound), rfl, rfl⟩

/-- Two items agree exactly when observations with one identifier are the same
evidence. -/
theorem agrees_iff {other : LoadItem φ} {observations others : List Observation}
    (states : item.StatesAll base observations) (otherStates : other.StatesAll base others) :
    item.Agrees base other ↔ (item.session = other.session →
      ∀ o ∈ observations, ∀ p ∈ others, o.id = p.id → o.toEvidence = p.toEvidence) := by
  constructor
  · intro agrees same o listed p otherListed sameId
    obtain ⟨place, sha, found, own⟩ := states.of_mem listed
    obtain ⟨otherPlace, otherSha, otherFound, foreign⟩ := otherStates.of_mem otherListed
    obtain ⟨rfl, rfl, release, capture⟩ := agrees same place sha otherPlace otherSha found
      otherFound (by rw [← own.id, ← foreign.id, sameId])
    have source : o.source = p.source := own.source.trans (same.trans foreign.source.symm)
    have sequence : o.sequence = p.sequence :=
      Fin.ext (own.sequence.trans foreign.sequence.symm)
    have captureNs : o.captureNs = p.captureNs :=
      Fin.ext (own.captureNs.trans (capture.trans foreign.captureNs.symm))
    have availableNs : o.availableNs = p.availableNs := by
      apply Fin.ext
      rw [own.availableNs, foreign.availableNs, releaseNs, releaseNs, release]
    have content : o.sha256 = p.sha256 := own.sha256.trans foreign.sha256.symm
    have uncertainty : o.uncertaintyNs = p.uncertaintyNs :=
      own.uncertaintyNs.trans foreign.uncertaintyNs.symm
    have sourceTime : o.sourceTime = p.sourceTime := own.sourceTime.trans foreign.sourceTime.symm
    obtain ⟨⟨_, _, _, _, _, _, _, _, _, _⟩, _⟩ := o
    obtain ⟨⟨_, _, _, _, _, _, _, _, _, _⟩, _⟩ := p
    simp_all
  · intro evidence same place sha otherPlace otherSha found otherFound sameName
    have small : place < observations.length := by
      rw [states.1]
      exact (List.getElem?_eq_some_iff.mp found).1
    have otherSmall : otherPlace < others.length := by
      rw [otherStates.1]
      exact (List.getElem?_eq_some_iff.mp otherFound).1
    obtain ⟨sha', found', own⟩ := states.2 place _ (List.getElem?_eq_getElem small)
    obtain ⟨otherSha', otherFound', foreign⟩ :=
      otherStates.2 otherPlace _ (List.getElem?_eq_getElem otherSmall)
    obtain rfl : sha = sha' := Option.some.inj (found.symm.trans found')
    obtain rfl : otherSha = otherSha' := Option.some.inj (otherFound.symm.trans otherFound')
    have equal := evidence same _ (List.getElem_mem small) _ (List.getElem_mem otherSmall)
      (Name.eq_of_text (own.id.trans (sameName.trans foreign.id.symm)))
    refine ⟨?_, ?_, ?_, ?_⟩
    · rw [← own.sequence, ← foreign.sequence, equal]
    · rw [← own.sha256, ← foreign.sha256, equal]
    · have release := own.availableNs.symm.trans
        ((congrArg (fun evidence : Evidence => evidence.availableNs.val) equal).trans
          foreign.availableNs)
      rw [releaseNs, releaseNs] at release
      omega
    · rw [← own.captureNs, ← foreign.captureNs, equal]

end LoadItem

end AgminaRuntime
