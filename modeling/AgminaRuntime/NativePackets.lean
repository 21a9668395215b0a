import AgminaRuntime.NativeImages

/-!
# Packets of the native policy

`validate_native_packet` checks a packet, puts the images into their envelopes
and passes the whole through JSON once more.  What it returns is accepted
unchanged the next time, whichever encoding an image came in.
-/

namespace AgminaRuntime

open Json (Value Floats LawfulFloats Clean)

/-- `POLICY_CAMERAS` -/
def policyCameras : List String := ["head", "left_wrist", "right_wrist"]

/-- `POLICY_PROPRIO_DIM` -/
def policyProprioDim : Nat := 61

section

variable {φ : Type}

/-- `isinstance(value, str)` and the string is not empty. -/
def checkSession : Value φ → Except PyExc Unit
  | .str (_ :: _) => .ok ()
  | _ => .error (.valueError "Native policy session is required")

/-- `type(value) is int and value >= 0` -/
def checkCounter (text : PyStr) : Value φ → Except PyExc Unit
  | .int value => if 0 ≤ value then .ok () else .error (.valueError text)
  | _ => .error (.valueError text)

/-- `_stamp(value)` -/
def stamp (value : Value φ) : Except PyExc (Value φ) :=
  match value with
  | .obj members =>
      if Dict.hasExactly members ["session", "epoch", "sequence"] then do
        checkSession (Dict.get members "session")
        checkCounter "Native policy epoch must be a nonnegative integer"
          (Dict.get members "epoch")
        checkCounter "Native policy sequence must be a nonnegative integer"
          (Dict.get members "sequence")
        pure (.obj members)
      else .error (.valueError "Native policy stamp must contain session/epoch/sequence")
  | _ => .error (.valueError "Native policy stamp must contain session/epoch/sequence")

/-- `isinstance(value, str) and value.strip()` -/
def checkInstruction : Value φ → Except PyExc Unit
  | .str points =>
      if points.all isSpace then .error (.valueError "Native policy instruction is required")
      else .ok ()
  | _ => .error (.valueError "Native policy instruction is required")

/-- The envelopes of the images of some cameras. -/
def envelopes (rgb : Dict φ) : List String → Except PyExc (Dict φ)
  | [] => .ok []
  | camera :: cameras => do
      let image ← imageEnvelope (Dict.get rgb camera)
      let images ← envelopes rgb cameras
      pure ((field camera, image) :: images)

variable [Floats φ]

/-- `type(item) in (int, float) and math.isfinite(item)` for each item. -/
def checkFinite : List (Value φ) → Except PyExc Unit
  | [] => .ok ()
  | .int value :: items =>
      if isFloatable value then checkFinite items else .error .overflowError
  | .float value :: items =>
      if Floats.finite value then checkFinite items
      else .error (.valueError "Native policy proprioception must be finite")
  | _ :: _ => .error (.valueError "Native policy proprioception must be finite")

def checkProprio : Value φ → Except PyExc Unit
  | .arr items =>
      if items.length = policyProprioDim then checkFinite items
      else .error (.valueError "Native policy requires the full 61-element proprio vector")
  | _ => .error (.valueError "Native policy requires the full 61-element proprio vector")

def rgbEnvelopes : Value φ → Except PyExc (Dict φ)
  | .obj rgb =>
      if Dict.hasExactly rgb policyCameras then envelopes rgb policyCameras
      else .error (.valueError "Native policy camera set/order is not the audited R1Pro set")
  | _ => .error (.valueError "Native policy camera set/order is not the audited R1Pro set")

/-- The packet with its images in envelopes. -/
def normalizePacket (value : Value φ) : Except PyExc (Dict φ) :=
  match value with
  | .obj members =>
      if Dict.hasExactly members ["stamp", "instruction", "proprio", "rgb"] then do
        let _ ← stamp (Dict.get members "stamp")
        checkInstruction (Dict.get members "instruction")
        checkProprio (Dict.get members "proprio")
        let images ← rgbEnvelopes (Dict.get members "rgb")
        pure (Dict.set members (field "rgb") (.obj images))
      else .error (.valueError "Native policy packet has an unexpected shape")
  | _ => .error (.valueError "Native policy packet has an unexpected shape")

/-- `validate_native_packet(value)` -/
def validateNativePacket (value : Value φ) : Except PyExc (Value φ) := do
  let normalized ← normalizePacket value
  let text ← jsonDumps (.obj normalized)
  jsonLoads text

end

section

variable {φ : Type}

/-- The image of a camera in a packet. -/
def imageOf (packet : Value φ) (camera : String) : Value φ :=
  match packet with
  | .obj members =>
      match Dict.get members "rgb" with
      | .obj rgb => Dict.get rgb camera
      | _ => .null
  | _ => .null

/-- The packet with another image for a camera. -/
def withImage (packet : Value φ) (camera : String) (image : Value φ) : Value φ :=
  match packet with
  | .obj members =>
      match Dict.get members "rgb" with
      | .obj rgb =>
          .obj (Dict.set members (field "rgb") (.obj (Dict.set rgb (field camera) image)))
      | _ => packet
  | _ => packet

/-! ## Setting one member of an exact dict -/

theorem get_set_same (members : Dict φ) (name : String) (value : Value φ) :
    Dict.get (Dict.set members (field name) value) name = value := by
  rw [Dict.get, lookup_set, if_pos rfl, Option.getD_some]

theorem get_set_other {members : Dict φ} {name other : String} {value : Value φ}
    (apart : field other ≠ field name) :
    Dict.get (Dict.set members (field name) value) other = Dict.get members other := by
  rw [Dict.get, lookup_set, if_neg apart, Dict.get]

theorem hasExactly_set {members : Dict φ} {names : List String} {name : String}
    (value : Value φ) (exactly : Dict.hasExactly members names = true) (listed : name ∈ names) :
    Dict.hasExactly (Dict.set members (field name) value) names = true := by
  rw [Dict.hasExactly, Bool.and_eq_true, List.all_eq_true, List.all_eq_true] at exactly ⊢
  constructor
  · intro member member'
    rcases mem_set member' with old | rfl
    · exact exactly.1 member old
    · simpa using ⟨name, listed, rfl⟩
  · intro other otherListed
    rw [Dict.has, lookup_set]
    split
    · rfl
    · exact exactly.2 other otherListed

theorem set_set (members : Dict φ) (name : List Json.Point) (first second : Value φ) :
    Dict.set (Dict.set members name first) name second = Dict.set members name second := by
  rw [Dict.set, keys_set]
  by_cases listed : name ∈ members.map Prod.fst
  · rw [if_pos (by rw [if_pos listed]; exact listed), Dict.set, Dict.set, if_pos listed,
      if_pos listed, List.map_map]
    apply List.map_congr_left
    intro member _
    dsimp only [Function.comp_apply]
    split
    · rw [if_pos rfl]
    · rfl
  · rw [if_pos (by rw [if_neg listed]; simp), Dict.set, Dict.set, if_neg listed, if_neg listed,
      List.map_append]
    congr 1
    · conv_rhs => rw [← List.map_id members]
      apply List.map_congr_left
      intro member member'
      rw [if_neg]
      · rfl
      · intro same
        exact listed (same ▸ List.mem_map_of_mem member')
    · simp

theorem tidy_get {members : Dict φ} (tidy : Json.Tidy (.obj members)) (name : String) :
    Json.Tidy (Dict.get members name) := by
  cases tidy with
  | obj names joined values =>
      cases found : members.lookup (field name) with
      | none =>
          rw [Dict.get, found]
          exact .null
      | some value =>
          rw [Dict.get, found]
          rw [List.lookup_eq_some_iff] at found
          obtain ⟨before, after, rfl, -⟩ := found
          exact values _ (List.mem_append_right _ List.mem_cons_self)

theorem get_of_mem {members : Dict φ} {name : String} {value : Value φ}
    (names : (members.map Prod.fst).Nodup) (listed : (field name, value) ∈ members) :
    Dict.get members name = value := by
  cases found : members.lookup (field name) with
  | none =>
      rw [List.lookup_eq_none_iff] at found
      simpa using found _ listed
  | some other =>
      rw [Dict.get, found]
      rw [List.lookup_eq_some_iff] at found
      obtain ⟨before, after, rfl, -⟩ := found
      have same := List.inj_on_of_nodup_map names listed
        (List.mem_append_right before List.mem_cons_self) rfl
      exact (congrArg Prod.snd same).symm

theorem tidy_set {members : Dict φ} {name : String} {value : Value φ}
    (tidy : Json.Tidy (.obj members)) (valueTidy : Json.Tidy value) :
    Json.Tidy (.obj (Dict.set members (field name) value)) := by
  cases tidy with
  | obj names joined values =>
      apply Json.Tidy.obj (nodup_set names)
      · intro member listed
        rcases mem_set listed with old | rfl
        · exact joined member old
        · exact joined_field name
      · intro member listed
        rcases mem_set listed with old | rfl
        · exact values member old
        · exact valueTidy

/-! ## The envelopes of a packet -/

/-- The envelope of an accepted image. -/
def envelopeOf (image : Value φ) : Value φ := (imageEnvelope image).toOption.getD .null

/-- The accepted images of a packet in their envelopes. -/
def enveloped (rgb : Dict φ) (cameras : List String) : Dict φ :=
  cameras.map fun camera => (field camera, envelopeOf (Dict.get rgb camera))

theorem envelopeOf_eq {image normalized : Value φ} (accepted : imageEnvelope image = .ok normalized) :
    envelopeOf image = normalized := by
  rw [envelopeOf, accepted]
  rfl

theorem envelopes_ok {rgb images : Dict φ} {cameras : List String} :
    envelopes rgb cameras = .ok images ↔
      (∀ camera ∈ cameras, ∃ normalized, imageEnvelope (Dict.get rgb camera) = .ok normalized) ∧
        images = enveloped rgb cameras := by
  induction cameras generalizing images with
  | nil => simp [envelopes, enveloped, eq_comm]
  | cons camera cameras ih =>
      simp only [envelopes, bind_ok_iff, ih, List.forall_mem_cons]
      constructor
      · rintro ⟨normalized, accepted, others, ⟨rest, rfl⟩, same⟩
        refine ⟨⟨⟨normalized, accepted⟩, rest⟩, ?_⟩
        rw [← Except.ok.inj same, ← envelopeOf_eq accepted]
        rfl
      · rintro ⟨⟨⟨normalized, accepted⟩, rest⟩, rfl⟩
        refine ⟨normalized, accepted, _, ⟨rest, rfl⟩, ?_⟩
        rw [enveloped, enveloped, List.map_cons, envelopeOf_eq accepted]
        rfl

theorem get_map_field {cameras : List String} {camera : String} (value : String → Value φ)
    (listed : camera ∈ cameras) :
    Dict.get (cameras.map fun name => (field name, value name)) camera = value camera := by
  induction cameras with
  | nil => contradiction
  | cons first cameras ih =>
      rw [Dict.get, List.map_cons, List.lookup_cons]
      by_cases same : field camera = field first
      · obtain rfl := field_injective same
        simp
      · rw [beq_false_of_ne same]
        rcases List.mem_cons.mp listed with rfl | later
        · contradiction
        · exact ih later

theorem get_enveloped {rgb : Dict φ} {camera : String} (listed : camera ∈ policyCameras) :
    Dict.get (enveloped rgb policyCameras) camera = envelopeOf (Dict.get rgb camera) :=
  get_map_field (fun name => envelopeOf (Dict.get rgb name)) listed

theorem hasExactly_enveloped (rgb : Dict φ) :
    Dict.hasExactly (enveloped rgb policyCameras) policyCameras = true := rfl

theorem stamp_ok {value same : Value φ} (accepted : stamp value = .ok same) : same = value := by
  unfold stamp at accepted
  split at accepted
  · split at accepted
    · obtain ⟨-, -, accepted⟩ := bind_ok_iff.mp accepted
      obtain ⟨-, -, accepted⟩ := bind_ok_iff.mp accepted
      obtain ⟨-, -, accepted⟩ := bind_ok_iff.mp accepted
      exact (Except.ok.inj accepted).symm
    · contradiction
  · contradiction

theorem short_of_le {value : Nat} (small : value ≤ maxImageBytes) :
    (Nat.toDigits 10 value).length ≤ Json.maxDigits := by
  rw [Nat.length_toDigits_le_iff (by decide) (by decide)]
  calc value ≤ maxImageBytes := small
    _ < 10 ^ 8 := by decide
    _ ≤ 10 ^ Json.maxDigits := Nat.pow_le_pow_right (by decide) (by decide)

variable [Floats φ]

/-- A packet that passes the checks, with its images. -/
structure Passes (members rgb : Dict φ) : Prop where
  exactly : Dict.hasExactly members ["stamp", "instruction", "proprio", "rgb"] = true
  stamp : AgminaRuntime.stamp (Dict.get members "stamp") = .ok (Dict.get members "stamp")
  instruction : checkInstruction (Dict.get members "instruction") = .ok ()
  proprio : checkProprio (Dict.get members "proprio") = .ok ()
  holds : Dict.get members "rgb" = .obj rgb
  cameras : Dict.hasExactly rgb policyCameras = true
  images : ∀ camera ∈ policyCameras, ∃ normalized,
    imageEnvelope (Dict.get rgb camera) = .ok normalized

theorem normalizePacket_ok {value : Value φ} {normalized : Dict φ} :
    normalizePacket value = .ok normalized ↔
      ∃ members rgb, value = .obj members ∧ Passes members rgb ∧
        normalized = Dict.set members (field "rgb") (.obj (enveloped rgb policyCameras)) := by
  constructor
  · intro read
    unfold normalizePacket at read
    split at read
    swap
    · contradiction
    rename_i members
    split at read
    swap
    · contradiction
    rename_i exactly
    obtain ⟨same, stamped, read⟩ := bind_ok_iff.mp read
    obtain ⟨_, instruction, read⟩ := bind_ok_iff.mp read
    obtain ⟨_, proprio, read⟩ := bind_ok_iff.mp read
    obtain ⟨images, imagesRead, read⟩ := bind_ok_iff.mp read
    obtain rfl := Except.ok.inj read
    unfold rgbEnvelopes at imagesRead
    split at imagesRead
    swap
    · contradiction
    rename_i rgb rgbEq
    split at imagesRead
    swap
    · contradiction
    rename_i cameras
    obtain ⟨each, rfl⟩ := envelopes_ok.mp imagesRead
    rw [stamp_ok stamped] at stamped
    exact ⟨members, rgb, rfl, ⟨exactly, stamped, instruction, proprio, rgbEq, cameras, each⟩, rfl⟩
  · rintro ⟨members, rgb, rfl, passes, rfl⟩
    have images := envelopes_ok.mpr ⟨passes.images, rfl⟩
    rw [normalizePacket, if_pos passes.exactly, passes.stamp, passes.instruction, passes.proprio,
      passes.holds, rgbEnvelopes, if_pos passes.cameras, images]
    rfl

/-- The normalized packet passes as well. -/
theorem Passes.again {members rgb : Dict φ} (passes : Passes members rgb) :
    Passes (Dict.set members (field "rgb") (.obj (enveloped rgb policyCameras)))
      (enveloped rgb policyCameras) where
  exactly := hasExactly_set _ passes.exactly (by simp)
  stamp := by
    rw [get_set_other (by decide)]
    exact passes.stamp
  instruction := by
    rw [get_set_other (by decide)]
    exact passes.instruction
  proprio := by
    rw [get_set_other (by decide)]
    exact passes.proprio
  holds := get_set_same _ _ _
  cameras := hasExactly_enveloped rgb
  images := by
    intro camera listed
    obtain ⟨normalized, accepted⟩ := passes.images camera listed
    obtain ⟨data, height, width, raw, envelope, -⟩ := imageEnvelope_ok accepted
    rw [get_enveloped listed, envelopeOf_eq accepted]
    exact ⟨normalized, envelope.accepted⟩

/-- Envelopes stay as they are. -/
theorem Passes.enveloped_again {members rgb : Dict φ} (passes : Passes members rgb) :
    enveloped (enveloped rgb policyCameras) policyCameras = enveloped rgb policyCameras := by
  apply List.map_congr_left
  intro camera listed
  obtain ⟨normalized, accepted⟩ := passes.images camera listed
  obtain ⟨data, height, width, raw, envelope, -⟩ := imageEnvelope_ok accepted
  rw [get_enveloped listed, envelopeOf_eq accepted, envelopeOf_eq envelope.accepted]

/-- Another image that is accepted keeps a packet passing. -/
theorem Passes.withImage {members rgb : Dict φ} (passes : Passes members rgb) {camera : String}
    (listed : camera ∈ policyCameras) {image normalized : Value φ}
    (accepted : imageEnvelope image = .ok normalized) :
    Passes (Dict.set members (field "rgb") (.obj (Dict.set rgb (field camera) image)))
      (Dict.set rgb (field camera) image) where
  exactly := hasExactly_set _ passes.exactly (by simp)
  stamp := by
    rw [get_set_other (by decide)]
    exact passes.stamp
  instruction := by
    rw [get_set_other (by decide)]
    exact passes.instruction
  proprio := by
    rw [get_set_other (by decide)]
    exact passes.proprio
  holds := get_set_same _ _ _
  cameras := hasExactly_set _ passes.cameras listed
  images := by
    intro other otherListed
    by_cases same : other = camera
    · subst same
      rw [get_set_same]
      exact ⟨normalized, accepted⟩
    · rw [get_set_other fun equal => same (field_injective equal)]
      exact passes.images other otherListed

theorem withImage_eq {members rgb : Dict φ} (passes : Passes members rgb) (camera : String)
    (image : Value φ) :
    withImage (.obj members) camera image =
      .obj (Dict.set members (field "rgb") (.obj (Dict.set rgb (field camera) image))) := by
  simp only [AgminaRuntime.withImage, passes.holds]

/-! ## Passing a packet through JSON -/

theorem Image.nested_clean (image : Image) : Clean 3 (image.nested : Value φ) := by
  apply Clean.arr (fun _ => Nat.zero_lt_succ 2)
  intro row listed
  obtain ⟨pixels, -, rfl⟩ := List.mem_map.mp listed
  apply Clean.arr (fun _ => Nat.two_pos)
  intro pixel pixelListed
  obtain ⟨bytes, -, rfl⟩ := List.mem_map.mp pixelListed
  apply Clean.arr (fun _ => Nat.one_pos)
  intro item itemListed
  obtain ⟨byte, -, rfl⟩ := List.mem_map.mp itemListed
  apply Clean.int
  apply short_of_le
  have small := byte.isLt
  exact Nat.le_trans (Nat.le_of_lt small) (by decide)

theorem Enveloped.clean {value : Value φ} {data : List Json.Point} {height width : Nat}
    {raw : List Base64.Byte} (enveloped : Enveloped value data height width raw)
    (joined : Json.Joined data) : Clean 2 value := by
  obtain ⟨rfl, ⟨tall, wide⟩, -, filled, bounded⟩ := enveloped
  have product : raw.length = height * (width * 3) := by simpa using filled
  have heightSmall : height ≤ maxImageBytes := by
    have grows := Nat.le_mul_of_pos_right height (show 0 < width * 3 by omega)
    omega
  have widthSmall : width ≤ maxImageBytes := by
    have grows := Nat.le_mul_of_pos_left (width * 3) tall
    omega
  have sizesClean : Clean 1 (sizes [height, width, 3] : Value φ) := by
    apply Clean.arr (fun _ => Nat.one_pos)
    intro item listed
    obtain ⟨size, member, rfl⟩ := List.mem_map.mp listed
    apply Clean.int
    apply short_of_le
    simp only [List.mem_cons, List.not_mem_nil, or_false] at member
    rcases member with rfl | rfl | rfl
    · exact heightSmall
    · exact widthSmall
    · decide
  apply Clean.obj (fun _ => Nat.two_pos)
  · show [field "__ndarray__", field "dtype", field "shape"].Nodup
    decide
  · simp [joined_field]
  · simp only [List.forall_mem_cons]
    exact ⟨.str joined, .str (joined_field _), sizesClean, fun _ => by simp⟩

/-- An object is clean if its members are. -/
theorem clean_obj {members : Dict φ} {names : List String} {depth : Nat}
    (tidy : Json.Tidy (.obj members)) (exactly : Dict.hasExactly members names = true)
    (each : ∀ name ∈ names, Clean depth (Dict.get members name)) :
    Clean (depth + 1) (.obj members) := by
  cases tidy with
  | obj distinct joined values =>
      apply Clean.obj (fun _ => Nat.succ_pos depth) distinct joined
      intro member listed
      have named := within_of_hasExactly exactly member.1 (List.mem_map_of_mem listed)
      obtain ⟨name, nameListed, same⟩ := List.mem_map.mp named
      have value := get_of_mem distinct (show (field name, member.2) ∈ members by
        rw [same]
        exact listed)
      have clean := each name nameListed
      rwa [value] at clean

theorem imageEnvelope_clean {value normalized : Value φ} (tidy : Json.Tidy value)
    (accepted : imageEnvelope value = .ok normalized) : Clean 2 normalized := by
  obtain ⟨data, height, width, raw, envelope, rfl | ⟨members, rfl, found⟩⟩ :=
    imageEnvelope_ok accepted
  · exact envelope.clean (joined_pointOf _)
  · apply envelope.clean
    have text := tidy_get tidy "__ndarray__"
    rw [found] at text
    cases text with
    | str joined => exact joined

theorem stamp_clean {value same : Value φ} (tidy : Json.Tidy value)
    (accepted : stamp value = .ok same) : Clean 1 value := by
  unfold stamp at accepted
  split at accepted
  swap
  · contradiction
  rename_i members
  split at accepted
  swap
  · contradiction
  rename_i exactly
  obtain ⟨_, session, accepted⟩ := bind_ok_iff.mp accepted
  obtain ⟨_, epoch, accepted⟩ := bind_ok_iff.mp accepted
  obtain ⟨_, sequence, accepted⟩ := bind_ok_iff.mp accepted
  have counter : ∀ {name : String} {text : PyStr},
      checkCounter text (Dict.get members name) = .ok () → Clean 0 (Dict.get members name) := by
    intro name text passes
    have whole := tidy_get tidy name
    cases value : Dict.get members name with
    | int number =>
        rw [value] at whole
        cases whole with
        | int short => exact .int short
    | _ => simp [value, checkCounter] at passes
  apply clean_obj tidy exactly
  simp only [List.forall_mem_cons]
  refine ⟨?_, counter epoch, counter sequence, fun _ => by simp⟩
  have whole := tidy_get tidy "session"
  cases value : Dict.get members "session" with
  | str points =>
      rw [value] at whole
      cases whole with
      | str joined => exact .str joined
  | _ => simp [value, checkSession] at session

theorem checkFinite_clean {items : List (Value φ)} (tidy : ∀ item ∈ items, Json.Tidy item)
    (passes : checkFinite items = .ok ()) : ∀ item ∈ items, Clean 0 item := by
  fun_induction checkFinite items with
  | case1 => simp
  | case2 value items _ ih =>
      obtain ⟨first, rest⟩ := List.forall_mem_cons.mp tidy
      cases first with
      | int short => exact List.forall_mem_cons.mpr ⟨.int short, ih rest passes⟩
  | case3 => cases passes
  | case4 value items finite ih =>
      obtain ⟨first, rest⟩ := List.forall_mem_cons.mp tidy
      exact List.forall_mem_cons.mpr ⟨.float finite, ih rest passes⟩
  | case5 => cases passes
  | case6 => cases passes

theorem checkProprio_clean {value : Value φ} (tidy : Json.Tidy value)
    (passes : checkProprio value = .ok ()) : Clean 1 value := by
  cases tidy with
  | arr values =>
      unfold checkProprio at passes
      simp only at passes
      split at passes
      · exact .arr (fun _ => Nat.one_pos) (checkFinite_clean values passes)
      · contradiction
  | _ => contradiction

theorem checkInstruction_clean {value : Value φ} (tidy : Json.Tidy value)
    (passes : checkInstruction value = .ok ()) : Clean 0 value := by
  cases tidy with
  | str joined => exact .str joined
  | _ => contradiction

theorem enveloped_clean {members rgb : Dict φ} (tidy : Json.Tidy (.obj members))
    (passes : Passes members rgb) : Clean 3 (.obj (enveloped rgb policyCameras)) := by
  have rgbTidy := tidy_get tidy "rgb"
  rw [passes.holds] at rgbTidy
  apply Clean.obj (fun _ => Nat.zero_lt_succ 2)
  · show (policyCameras.map field).Nodup
    decide
  · intro member listed
    obtain ⟨camera, -, rfl⟩ := List.mem_map.mp listed
    exact joined_field camera
  · intro member listed
    obtain ⟨camera, cameraListed, rfl⟩ := List.mem_map.mp listed
    obtain ⟨normalized, accepted⟩ := passes.images camera cameraListed
    rw [envelopeOf_eq accepted]
    exact imageEnvelope_clean (tidy_get rgbTidy camera) accepted

/-- A packet that was parsed and passes is written and read back. -/
theorem Passes.clean {members rgb : Dict φ} (tidy : Json.Tidy (.obj members))
    (passes : Passes members rgb) :
    Clean 4 (.obj (Dict.set members (field "rgb") (.obj (enveloped rgb policyCameras)))) := by
  have images := enveloped_clean tidy passes
  apply clean_obj (tidy_set tidy images.tidy) passes.again.exactly
  simp only [List.forall_mem_cons]
  refine ⟨?_, ?_, ?_, ?_, fun _ => by simp⟩
  · rw [get_set_other (by decide)]
    exact (stamp_clean (tidy_get tidy "stamp") passes.stamp).mono (by decide)
  · rw [get_set_other (by decide)]
    exact (checkInstruction_clean (tidy_get tidy "instruction") passes.instruction).mono (by decide)
  · rw [get_set_other (by decide)]
    exact (checkProprio_clean (tidy_get tidy "proprio") passes.proprio).mono (by decide)
  · rw [get_set_same]
    exact images

/-- A parsed packet is accepted exactly when it passes, with its images in
envelopes. -/
theorem validateNativePacket_ok [LawfulFloats φ] {value normalized : Value φ}
    (tidy : Json.Tidy value) :
    validateNativePacket value = .ok normalized ↔
      ∃ members rgb, value = .obj members ∧ Passes members rgb ∧
        normalized =
          .obj (Dict.set members (field "rgb") (.obj (enveloped rgb policyCameras))) := by
  have through : ∀ {members rgb : Dict φ}, value = .obj members → Passes members rgb →
      (jsonDumps (.obj (Dict.set members (field "rgb") (.obj (enveloped rgb policyCameras)))) >>=
        jsonLoads) =
          .ok (.obj (Dict.set members (field "rgb") (.obj (enveloped rgb policyCameras)))) := by
    rintro members rgb rfl passes
    have clean := passes.clean tidy
    rw [jsonDumps, if_neg (by simp [hasLongInt_of_tidy clean.tidy])]
    exact jsonLoads_write clean (by decide)
  unfold validateNativePacket
  rw [bind_ok_iff]
  constructor
  · rintro ⟨out, read, written⟩
    obtain ⟨members, rgb, same, passes, rfl⟩ := normalizePacket_ok.mp read
    have result := through same passes
    exact ⟨members, rgb, same, passes, Except.ok.inj (written.symm.trans result)⟩
  · rintro ⟨members, rgb, same, passes, rfl⟩
    exact ⟨_, normalizePacket_ok.mpr ⟨members, rgb, same, passes, rfl⟩, through same passes⟩

/-- What a packet and what is returned for it have to do with each other, and
which images the packet may carry. -/
structure Faithful (packet normalized : Value φ) : Prop where
  unchanged : validateNativePacket normalized = .ok normalized
  kept : ∃ members others, packet = .obj members ∧ normalized = .obj others ∧
    ∀ name ∈ ["stamp", "instruction", "proprio"], Dict.get others name = Dict.get members name
  encodings : ∀ camera ∈ policyCameras, ∀ image : Image, image.bytes.length ≤ maxImageBytes →
    ∃ result, validateNativePacket (withImage packet camera image.nested) = .ok result ∧
      validateNativePacket (withImage packet camera image.canonicalEnvelope) = .ok result ∧
        imageOf result camera = image.canonicalEnvelope ∧
          readBack (imageOf result camera) = some image.rows
  oversized : ∀ camera ∈ policyCameras, ∀ image : Image, maxImageBytes < image.bytes.length →
    ∀ result, validateNativePacket (withImage packet camera image.nested) ≠ .ok result ∧
      validateNativePacket (withImage packet camera image.canonicalEnvelope) ≠ .ok result
  rejected : ∀ camera ∈ policyCameras, ∀ items : List (Value φ),
    (¬ ∃ image : Image, .arr items = (image.nested : Value φ)) →
      ∀ other, imageOf other camera = .arr items → ∀ result, validateNativePacket other ≠ .ok result

theorem validate_normalizes {value result : Value φ}
    (returned : validateNativePacket value = .ok result) :
    ∃ members rgb, value = .obj members ∧ Passes members rgb := by
  unfold validateNativePacket at returned
  obtain ⟨out, read, -⟩ := bind_ok_iff.mp returned
  obtain ⟨members, rgb, same, passes, -⟩ := normalizePacket_ok.mp read
  exact ⟨members, rgb, same, passes⟩

/-- The image of a camera in a packet that is accepted is accepted. -/
theorem image_accepted {value result : Value φ}
    (returned : validateNativePacket value = .ok result) {camera : String}
    (listed : camera ∈ policyCameras) :
    ∃ normalized, imageEnvelope (imageOf value camera) = .ok normalized := by
  obtain ⟨members, rgb, rfl, passes⟩ := validate_normalizes returned
  obtain ⟨normalized, accepted⟩ := passes.images camera listed
  simp only [imageOf, passes.holds]
  exact ⟨normalized, accepted⟩

theorem imageOf_withImage {members rgb : Dict φ} (passes : Passes members rgb) (camera : String)
    (image : Value φ) : imageOf (withImage (.obj members) camera image) camera = image := by
  simp only [withImage_eq passes, imageOf, get_set_same]

variable [LawfulFloats φ]

theorem Passes.unchanged {members rgb : Dict φ} (tidy : Json.Tidy (.obj members))
    (passes : Passes members rgb) {normalized : Value φ}
    (same : normalized =
      .obj (Dict.set members (field "rgb") (.obj (enveloped rgb policyCameras)))) :
    validateNativePacket normalized = .ok normalized := by
  subst same
  rw [validateNativePacket_ok (tidy_set tidy (enveloped_clean tidy passes).tidy)]
  refine ⟨_, _, rfl, passes.again, ?_⟩
  rw [set_set, passes.enveloped_again]

/-- With an image that is accepted a packet is accepted, and the result depends
on the envelope of the image alone. -/
theorem Passes.validate_withImage {members rgb : Dict φ} (tidy : Json.Tidy (.obj members))
    (passes : Passes members rgb) {camera : String} (listed : camera ∈ policyCameras)
    {image normalized : Value φ} (imageTidy : Json.Tidy image)
    (accepted : imageEnvelope image = .ok normalized) :
    validateNativePacket (AgminaRuntime.withImage (.obj members) camera image) =
      .ok (.obj (Dict.set members (field "rgb")
        (.obj (Dict.set (enveloped rgb policyCameras) (field camera) normalized)))) := by
  have rgbTidy := tidy_get tidy "rgb"
  rw [passes.holds] at rgbTidy
  rw [withImage_eq passes,
    validateNativePacket_ok (tidy_set tidy (tidy_set rgbTidy imageTidy))]
  refine ⟨_, _, rfl, passes.withImage listed accepted, ?_⟩
  rw [set_set]
  congr 3
  have named : field camera ∈ (enveloped rgb policyCameras).map Prod.fst := by
    rw [enveloped, List.map_map]
    exact List.mem_map.mpr ⟨camera, listed, rfl⟩
  rw [Dict.set, if_pos named, enveloped, enveloped, List.map_map]
  apply List.map_congr_left
  intro other _
  dsimp only [Function.comp_apply]
  by_cases same : field other = field camera
  · obtain rfl := field_injective same
    rw [if_pos rfl, get_set_same, envelopeOf_eq accepted]
  · rw [if_neg same, get_set_other same]

end

/-- A packet that is returned is accepted unchanged; its images may come in
either encoding, which leads to one result; and no other list is an image. -/
theorem native_packet_faithful {φ : Type} [Floats φ] [LawfulFloats φ] (text : List Char)
    (packet normalized : Value φ) (parsed : jsonLoads text = .ok packet)
    (returned : validateNativePacket packet = .ok normalized) : Faithful packet normalized := by
  have tidy := jsonLoads_tidy parsed
  obtain ⟨members, rgb, rfl, passes, rfl⟩ := (validateNativePacket_ok tidy).mp returned
  constructor
  · exact passes.unchanged tidy rfl
  · refine ⟨_, _, rfl, rfl, fun name listed => get_set_other ?_⟩
    simp only [List.mem_cons, List.not_mem_nil, or_false] at listed
    rcases listed with rfl | rfl | rfl <;> decide
  · intro camera listed image bounded
    have list : imageEnvelope (image.nested : Value φ) = .ok image.canonicalEnvelope :=
      imageEnvelope_arr.mpr ⟨image, rfl, bounded, rfl⟩
    have same := (image.enveloped (φ := φ) bounded).accepted
    have sameTidy := ((image.enveloped (φ := φ) bounded).clean (joined_pointOf _)).tidy
    have carried : imageOf (.obj (Dict.set members (field "rgb") (.obj (Dict.set
        (enveloped rgb policyCameras) (field camera) image.canonicalEnvelope)))) camera =
          (image.canonicalEnvelope : Value φ) := by
      simp only [imageOf, get_set_same]
    refine ⟨_, passes.validate_withImage tidy listed image.nested_clean.tidy list,
      passes.validate_withImage tidy listed sameTidy same, carried, ?_⟩
    rw [carried, image.readBack_canonicalEnvelope]
  · intro camera listed image large result
    constructor
    · intro accepted
      obtain ⟨_, read⟩ := image_accepted accepted listed
      rw [imageOf_withImage passes] at read
      obtain ⟨other, same, bounded, -⟩ := imageEnvelope_arr.mp read
      have bytes := nestedUint8_iff.mpr (image.nested_shape (φ := φ))
      rw [show (image.nested : Value φ) = other.nested from same,
        nestedUint8_iff.mpr other.nested_shape] at bytes
      obtain ⟨-, equal⟩ := Prod.mk.inj (Except.ok.inj bytes)
      rw [← equal] at large
      omega
    · intro accepted
      obtain ⟨_, read⟩ := image_accepted accepted listed
      rw [imageOf_withImage passes] at read
      have filled : image.bytes.length = [image.height, image.width, 3].prod := by
        simp [image.length_bytes, Nat.mul_assoc]
      rw [show (image.canonicalEnvelope : Value φ) = envelope (encoded image.bytes)
        [image.height, image.width, 3] from rfl, imageEnvelope_envelope image.positive
          (b64decode_encoded _) filled, if_pos large] at read
      contradiction
  · intro camera listed items none other holds result accepted
    obtain ⟨_, read⟩ := image_accepted accepted listed
    rw [holds] at read
    obtain ⟨image, same, -⟩ := imageEnvelope_arr.mp read
    exact none ⟨image, same⟩

namespace Sample

/-- The image of one black pixel. -/
def blackPixel : Image where
  height := 1
  width := 1
  rows := [[[0, 0, 0]]]
  positive := by decide
  tall := rfl
  wide := by decide
  channels := by decide

/-- A packet whose images are nested lists. -/
def nativePacket : Dict Json.Verbatim :=
  [(field "stamp", .obj [(field "session", .str (field "s")), (field "epoch", .int 0),
      (field "sequence", .int 0)]),
    (field "instruction", .str (field "move to the radio")),
    (field "proprio", .arr (List.replicate policyProprioDim (.int 0))),
    (field "rgb", .obj (policyCameras.map fun camera => (field camera, blackPixel.nested)))]

theorem passes_nativePacket :
    Passes nativePacket (policyCameras.map fun camera => (field camera, blackPixel.nested)) where
  exactly := rfl
  stamp := rfl
  instruction := rfl
  proprio := by decide +kernel
  holds := rfl
  cameras := rfl
  images := by
    intro camera listed
    rw [get_map_field (fun _ => blackPixel.nested) listed]
    exact ⟨_, imageEnvelope_arr.mpr ⟨blackPixel, rfl, by decide, rfl⟩⟩

theorem clean_nativePacket : Clean 5 (.obj nativePacket) := by
  have zero {depth : Nat} : Clean depth (.int 0 : Value Json.Verbatim) := .int (by decide)
  have stamp : Clean 4 (.obj [(field "session", .str (field "s")), (field "epoch", .int 0),
      (field "sequence", .int 0)] : Value Json.Verbatim) := by
    apply Clean.obj (by decide)
    · show [field "session", field "epoch", field "sequence"].Nodup
      decide
    · simp [joined_field]
    · simpa using ⟨.str (joined_field "s"), zero⟩
  have proprio : Clean 4 (.arr (List.replicate policyProprioDim (.int 0)) :
      Value Json.Verbatim) := by
    apply Clean.arr (by decide)
    intro item listed
    rw [List.eq_of_mem_replicate listed]
    exact zero
  have rgb : Clean 4 (.obj (policyCameras.map fun camera => (field camera, blackPixel.nested)) :
      Value Json.Verbatim) := by
    apply Clean.obj (by decide)
    · show (policyCameras.map field).Nodup
      decide
    · simp [joined_field]
    · simp [blackPixel.nested_clean]
  apply Clean.obj (by decide)
  · show [field "stamp", field "instruction", field "proprio", field "rgb"].Nodup
    decide
  · simp [nativePacket, joined_field]
  · simpa [nativePacket] using ⟨stamp, .str (joined_field _), proprio, rgb⟩

end Sample

/-- A packet in JSON whose images are nested lists. -/
theorem native_packet_faithful_nested :
    ∃ normalized, jsonLoads (Json.write Json.asciiInk (.obj Sample.nativePacket)) =
        .ok (.obj Sample.nativePacket) ∧
      validateNativePacket (.obj Sample.nativePacket) = .ok normalized ∧
        Faithful (.obj Sample.nativePacket) normalized := by
  have parsed := jsonLoads_write Sample.clean_nativePacket (by decide)
  have returned := (validateNativePacket_ok Sample.clean_nativePacket.tidy).mpr
    ⟨_, _, rfl, Sample.passes_nativePacket, rfl⟩
  exact ⟨_, parsed, returned, native_packet_faithful _ _ _ parsed returned⟩

end AgminaRuntime
