import AgminaRuntime.PythonJson

/-!
# Images of the native policy

An image comes as nested lists or as an envelope with its bytes in base64.  The
nested lists are flattened recursively; what is accepted is rectangular at every
level, and the bytes, read back in the declared shape, are the nested values.
-/

/-! ## Rows read back from a flat list -/

namespace RowMajor

variable {α : Type}

/-- So many rows of a flat list. -/
def rows (count width : Nat) (cells : List α) : List (List α) :=
  (List.range count).map fun row => (cells.drop (row * width)).take width

theorem rows_succ (count width : Nat) (cells : List α) :
    rows (count + 1) width cells = cells.take width :: rows count width (cells.drop width) := by
  rw [rows, List.range_succ_eq_map, List.map_cons, List.map_map, rows]
  congr 1
  · simp
  · apply List.map_congr_left
    intro row _
    simp only [Function.comp_apply, List.drop_drop, Nat.succ_eq_add_one]
    congr 2
    ring

/-- Rows of one width are read back. -/
theorem rows_flatten {grid : List (List α)} {width : Nat}
    (wide : ∀ row ∈ grid, row.length = width) : rows grid.length width grid.flatten = grid := by
  induction grid with
  | nil => rfl
  | cons row grid ih =>
      have first := wide row List.mem_cons_self
      rw [List.length_cons, rows_succ, List.flatten_cons, ← first, List.take_left',
        List.drop_left', first, ih fun other member => wide other (List.mem_cons_of_mem _ member)]
      · rfl
      · rfl

theorem flatten_rows {count width : Nat} {cells : List α} (filled : cells.length = count * width) :
    (rows count width cells).flatten = cells := by
  induction count generalizing cells with
  | zero =>
      rw [Nat.zero_mul, List.length_eq_zero_iff] at filled
      rw [filled]
      rfl
  | succ count ih =>
      rw [rows_succ, List.flatten_cons, ih, List.take_append_drop]
      rw [List.length_drop, filled, Nat.succ_mul, Nat.add_sub_cancel]

theorem length_rows (count width : Nat) (cells : List α) :
    (rows count width cells).length = count := by
  simp [rows]

theorem length_of_mem_rows {count width : Nat} {cells row : List α}
    (filled : cells.length = count * width) (listed : row ∈ rows count width cells) :
    row.length = width := by
  obtain ⟨number, member, rfl⟩ := List.mem_map.mp listed
  have small : number + 1 ≤ count := List.mem_range.mp member
  have room : (number + 1) * width ≤ count * width := Nat.mul_le_mul_right width small
  rw [Nat.succ_mul] at room
  rw [List.length_take, List.length_drop, filled]
  omega

theorem length_flatten {grid : List (List α)} {width : Nat}
    (wide : ∀ row ∈ grid, row.length = width) : grid.flatten.length = grid.length * width := by
  rw [List.length_flatten, List.map_congr_left wide]
  simp

end RowMajor

namespace AgminaRuntime

open Json (Value Floats LawfulFloats Clean)

/-- `MAX_IMAGE_BYTES` -/
def maxImageBytes : Nat := 20000000

section

variable {φ : Type}

/-! ## The two encodings -/

/-- `type(item) is int and 0 <= item <= 255` -/
def uint8 : Value φ → Option Base64.Byte
  | .int value => if 0 ≤ value ∧ value ≤ 255 then some (Base64.byte value.toNat) else none
  | _ => none

/-- Several shapes with their bytes as one; `None` where the shapes differ. -/
def joinShapes : List (List Nat × List Base64.Byte) → Option (List Nat × List Base64.Byte)
  | [] => none
  | (shape, raw) :: rest =>
      if rest.any fun child => child.1 ≠ shape then none
      else some ((rest.length + 1) :: shape, raw ++ rest.flatMap Prod.snd)

mutual

/-- `_nested_uint8(value)` -/
def nestedUint8 : Value φ → Except PyExc (List Nat × List Base64.Byte)
  | .arr items =>
      match items.head? with
      | none => .error (.valueError "Native policy image must be a nonempty nested list")
      | some (.arr _) => do
          match joinShapes (← nestedItems items) with
          | none => .error (.valueError "Native policy image must be rectangular")
          | some joined => pure joined
      | some _ =>
          match items.mapM uint8 with
          | none => .error (.valueError "Native policy image values must be uint8")
          | some raw => .ok ([items.length], raw)
  | _ => .error (.valueError "Native policy image must be a nonempty nested list")

def nestedItems : List (Value φ) → Except PyExc (List (List Nat × List Base64.Byte))
  | [] => .ok []
  | item :: items => do
      let child ← nestedUint8 item
      let children ← nestedItems items
      pure (child :: children)

end

/-- A shape in JSON. -/
def sizes (shape : List Nat) : Value φ := .arr (shape.map fun size : Nat => .int size)

/-- An image in its envelope. -/
def envelope (data : List Json.Point) (shape : List Nat) : Value φ :=
  .obj [(field "__ndarray__", .str data), (field "dtype", .str (field "uint8")),
    (field "shape", sizes shape)]

/-- The shape that an envelope declares. -/
def declaredShape : Value φ → Option (List Nat)
  | .arr [.int height, .int width, .int channels] =>
      if 1 ≤ height ∧ 1 ≤ width ∧ channels = 3 then some [height.toNat, width.toNat, 3] else none
  | _ => none

/-- `_image_envelope(value)` -/
def imageEnvelope (value : Value φ) : Except PyExc (Value φ) :=
  match value with
  | .arr items => do
      let (shape, raw) ← nestedUint8 (.arr items)
      if shape.length ≠ 3 ∨ shape.getLast? ≠ some 3 ∨ maxImageBytes < raw.length then
        .error (.valueError "Native policy image must be bounded HxWx3 uint8")
      else pure (envelope ((Base64.encode raw).map Json.pointOf) shape)
  | .obj members =>
      if Dict.hasExactly members ["__ndarray__", "dtype", "shape"] then
        match Dict.get members "dtype", Dict.get members "__ndarray__" with
        | .str dtype, .str data =>
            if dtype = field "uint8" then
              match declaredShape (Dict.get members "shape") with
              | none =>
                  .error (.valueError "Native policy image envelope must declare HxWx3 shape")
              | some shape =>
                  match b64decode ⟨data⟩ with
                  | none => .error (.valueError "Native policy image envelope has invalid base64")
                  | some raw =>
                      if raw.length ≠ shape.prod ∨ maxImageBytes < raw.length then
                        .error (.valueError "Native policy image envelope byte bound mismatch")
                      else .ok (envelope data shape)
            else .error (.valueError "Native policy image envelope must declare uint8 data")
        | _, _ => .error (.valueError "Native policy image envelope must declare uint8 data")
      else
        .error (.valueError "Native policy image must be a nested list or ndarray envelope")
  | _ => .error (.valueError "Native policy image must be a nested list or ndarray envelope")

/-! ## Images -/

/-- A rectangular image with three channels. -/
structure Image where
  height : Nat
  width : Nat
  rows : List (List (List Base64.Byte))
  positive : 0 < height ∧ 0 < width
  tall : rows.length = height
  wide : ∀ row ∈ rows, row.length = width
  channels : ∀ row ∈ rows, ∀ pixel ∈ row, pixel.length = 3

namespace Image

/-- The bytes in row-major order. -/
def bytes (image : Image) : List Base64.Byte := image.rows.flatten.flatten

/-- The image as nested lists. -/
def nested (image : Image) : Value φ :=
  .arr (image.rows.map fun row =>
    .arr (row.map fun pixel => .arr (pixel.map fun byte => .int byte.val)))

/-- The image in an envelope with canonical base64. -/
def canonicalEnvelope (image : Image) : Value φ :=
  envelope ((Base64.encode image.bytes).map Json.pointOf) [image.height, image.width, 3]

end Image

/-- The bytes of an envelope, read back row by row in the declared shape. -/
def readBack : Value φ → Option (List (List (List Base64.Byte)))
  | .obj members =>
      match declaredShape (Dict.get members "shape"), Dict.get members "__ndarray__" with
      | some [height, width, channels], .str data =>
          (b64decode ⟨data⟩).map fun raw =>
            RowMajor.rows height width (RowMajor.rows (height * width) channels raw)
      | _, _ => none
  | _ => none

/-! ## Flattening -/

/-- Nested lists of one shape, with their bytes. -/
inductive Nested : List Nat → Value φ → List Base64.Byte → Prop
  | cells {raw : List Base64.Byte} (nonempty : raw ≠ []) :
      Nested [raw.length] (.arr (raw.map fun byte => .int byte.val)) raw
  | node {shape : List Nat} {children : List (Value φ × List Base64.Byte)}
      (nonempty : children ≠ []) (each : ∀ child ∈ children, Nested shape child.1 child.2) :
      Nested (children.length :: shape) (.arr (children.map Prod.fst))
        (children.flatMap Prod.snd)

theorem uint8_iff {value : Value φ} {byte : Base64.Byte} :
    uint8 value = some byte ↔ value = .int byte.val := by
  cases value with
  | int value =>
      show (if 0 ≤ value ∧ value ≤ 255 then some (Base64.byte value.toNat) else none) = some byte ↔ _
      constructor
      · intro read
        split at read
        · obtain rfl := Option.some.inj read
          have kept : (Base64.byte value.toNat).val = value.toNat := by
            rw [Base64.byte, Fin.val_ofNat]
            omega
          rw [kept, Int.toNat_of_nonneg (by omega)]
        · contradiction
      · intro same
        obtain rfl := Value.int.inj same
        have small := byte.isLt
        rw [if_pos (by omega), Int.toNat_natCast, Base64.byte, Fin.ofNat_val_eq_self]
  | _ => simp [uint8]

theorem mapM_uint8 {items : List (Value φ)} {raw : List Base64.Byte} :
    items.mapM uint8 = some raw ↔ items = raw.map fun byte => .int byte.val := by
  induction items generalizing raw with
  | nil =>
      cases raw with
      | nil => simp
      | cons byte raw => simp
  | cons item items ih =>
      rw [List.mapM_cons]
      simp only [Option.bind_eq_bind, Option.bind_eq_some_iff, Option.pure_def, Option.some.injEq,
        uint8_iff, ih]
      constructor
      · rintro ⟨first, rfl, rest, rfl, rfl⟩
        rfl
      · intro same
        cases raw with
        | nil => contradiction
        | cons byte raw =>
            obtain ⟨first, rest⟩ := List.cons.inj same
            exact ⟨byte, first, raw, rest, rfl⟩

theorem joinShapes_ok {children : List (List Nat × List Base64.Byte)} {shape : List Nat}
    {raw : List Base64.Byte} (joined : joinShapes children = some (shape, raw)) :
    children ≠ [] ∧ ∃ inner, shape = children.length :: inner ∧
      (∀ child ∈ children, child.1 = inner) ∧ raw = children.flatMap Prod.snd := by
  unfold joinShapes at joined
  split at joined
  · contradiction
  · rename_i inner first rest
    split at joined
    · contradiction
    · rename_i same
      simp only [Option.some.injEq, Prod.mk.injEq] at joined
      obtain ⟨rfl, rfl⟩ := joined
      refine ⟨List.cons_ne_nil _ _, inner, rfl, ?_, rfl⟩
      simpa using same

theorem joinShapes_some {children : List (List Nat × List Base64.Byte)} {inner : List Nat}
    (nonempty : children ≠ []) (same : ∀ child ∈ children, child.1 = inner) :
    joinShapes children = some (children.length :: inner, children.flatMap Prod.snd) := by
  cases children with
  | nil => contradiction
  | cons child rest =>
      obtain ⟨shape, raw⟩ := child
      obtain ⟨rfl, others⟩ := List.forall_mem_cons.mp same
      rw [joinShapes, if_neg]
      · rfl
      · simpa using others

mutual

theorem nestedUint8_ok : (value : Value φ) → {shape : List Nat} → {raw : List Base64.Byte} →
    nestedUint8 value = .ok (shape, raw) → Nested shape value raw
  | .arr items, shape, raw, read => by
      rw [nestedUint8] at read
      split at read
      · contradiction
      · obtain ⟨children, childrenRead, read⟩ := bind_ok_iff.mp read
        split at read
        · contradiction
        · rename_i joined joinedEq
          obtain rfl := Except.ok.inj read
          obtain ⟨pairs, rfl, rfl, each⟩ := nestedItems_ok items childrenRead
          obtain ⟨nonempty, inner, rfl, same, rfl⟩ := joinShapes_ok joinedEq
          have node := @Nested.node φ inner (pairs.map fun pair => (pair.1, pair.2.2))
            (by simpa using nonempty) (by
              intro child listed
              obtain ⟨pair, member, rfl⟩ := List.mem_map.mp listed
              have own := each pair member
              rwa [same pair.2 (List.mem_map_of_mem member)] at own)
          simpa [List.flatMap_map, Function.comp_def] using node
      · split at read
        · contradiction
        · rename_i solid _ _ bytes bytesEq
          simp only [Except.ok.injEq, Prod.mk.injEq] at read
          obtain ⟨rfl, rfl⟩ := read
          obtain rfl := mapM_uint8.mp bytesEq
          rw [List.length_map]
          apply Nested.cells
          rintro rfl
          contradiction
  | .null, _, _, read | .bool _, _, _, read | .int _, _, _, read | .float _, _, _, read
  | .str _, _, _, read | .obj _, _, _, read => by simp [nestedUint8] at read

theorem nestedItems_ok : (items : List (Value φ)) →
    {children : List (List Nat × List Base64.Byte)} → nestedItems items = .ok children →
      ∃ pairs : List (Value φ × List Nat × List Base64.Byte), items = pairs.map Prod.fst ∧
        children = pairs.map Prod.snd ∧ ∀ pair ∈ pairs, Nested pair.2.1 pair.1 pair.2.2
  | [], children, read => by
      obtain rfl := Except.ok.inj read
      exact ⟨[], rfl, rfl, by simp⟩
  | item :: items, children, read => by
      obtain ⟨child, childRead, read⟩ := bind_ok_iff.mp read
      obtain ⟨others, othersRead, same⟩ := bind_ok_iff.mp read
      obtain rfl := Except.ok.inj same
      obtain ⟨pairs, rfl, rfl, each⟩ := nestedItems_ok items othersRead
      refine ⟨(item, child) :: pairs, rfl, rfl, List.forall_mem_cons.mpr ⟨?_, each⟩⟩
      exact nestedUint8_ok item childRead

end

theorem nestedItems_map {children : List (Value φ × List Nat × List Base64.Byte)}
    (each : ∀ child ∈ children, nestedUint8 child.1 = .ok child.2) :
    nestedItems (children.map Prod.fst) = .ok (children.map Prod.snd) := by
  induction children with
  | nil => rfl
  | cons child children ih =>
      rw [List.map_cons, nestedItems, each child List.mem_cons_self,
        ih fun other member => each other (List.mem_cons_of_mem _ member)]
      rfl

theorem Nested.isArr {shape : List Nat} {value : Value φ} {raw : List Base64.Byte}
    (nested : Nested shape value raw) : ∃ items, value = .arr items := by
  cases nested with
  | cells => exact ⟨_, rfl⟩
  | node => exact ⟨_, rfl⟩

/-- Nested lists of one shape are flattened to their bytes. -/
theorem Nested.read {shape : List Nat} {value : Value φ} {raw : List Base64.Byte}
    (nested : Nested shape value raw) : nestedUint8 value = .ok (shape, raw) := by
  induction nested with
  | @cells raw nonempty =>
      cases raw with
      | nil => contradiction
      | cons byte raw =>
          have bytes := mapM_uint8 (φ := φ) |>.mpr
            (rfl : (byte :: raw).map (fun byte => Value.int byte.val) = _)
          rw [nestedUint8, List.map_cons, List.head?_cons]
          rw [List.map_cons] at bytes
          simp [bytes]
  | @node shape children nonempty each ih =>
      have read := @nestedItems_map φ (children.map fun child =>
        (child.1, shape, child.2)) (by
          intro other listed
          obtain ⟨pair, member, rfl⟩ := List.mem_map.mp listed
          exact ih pair member)
      simp only [List.map_map, Function.comp_def] at read
      have joined := @joinShapes_some (children.map fun child => (shape, child.2))
        shape (by simpa using nonempty) (by
          intro other listed
          obtain ⟨pair, -, rfl⟩ := List.mem_map.mp listed
          rfl)
      rw [List.length_map, List.flatMap_map] at joined
      have head : ∃ items, (children.map Prod.fst).head? = some (.arr items) := by
        cases children with
        | nil => contradiction
        | cons child children =>
            obtain ⟨items, first⟩ := (each child List.mem_cons_self).isArr
            exact ⟨items, congrArg some first⟩
      obtain ⟨items, head⟩ := head
      rw [nestedUint8, head]
      simp only [read, joined, bind, Except.bind]
      rfl

theorem nestedUint8_iff {value : Value φ} {shape : List Nat} {raw : List Base64.Byte} :
    nestedUint8 value = .ok (shape, raw) ↔ Nested shape value raw :=
  ⟨nestedUint8_ok value, Nested.read⟩

/-- The nested lists of a shape with given bytes. -/
def rebuild : List Nat → List Base64.Byte → Value φ
  | [], _ => .null
  | [_], raw => .arr (raw.map fun byte => .int byte.val)
  | size :: shape, raw => .arr ((RowMajor.rows size shape.prod raw).map (rebuild shape))

theorem Nested.shape_ne_nil {shape : List Nat} {value : Value φ} {raw : List Base64.Byte}
    (nested : Nested shape value raw) : shape ≠ [] := by
  cases nested <;> exact List.cons_ne_nil _ _

/-- Nested lists are made up of their shape and their bytes. -/
theorem Nested.rebuilt {shape : List Nat} {value : Value φ} {raw : List Base64.Byte}
    (nested : Nested shape value raw) :
    raw.length = shape.prod ∧ (∀ size ∈ shape, 0 < size) ∧ value = rebuild shape raw := by
  induction nested with
  | cells nonempty =>
      refine ⟨by simp, ?_, rfl⟩
      simpa [List.length_pos_iff] using nonempty
  | @node shape children nonempty each ih =>
      have wide : ∀ row ∈ children.map Prod.snd, row.length = shape.prod := by
        intro row listed
        obtain ⟨child, member, rfl⟩ := List.mem_map.mp listed
        exact (ih child member).1
      have flat : children.flatMap Prod.snd = (children.map Prod.snd).flatten := by
        rw [List.flatMap_def]
      refine ⟨?_, ?_, ?_⟩
      · rw [flat, RowMajor.length_flatten wide, List.length_map, List.prod_cons]
      · rw [List.forall_mem_cons]
        obtain ⟨child, member⟩ := List.exists_mem_of_ne_nil _ nonempty
        exact ⟨List.length_pos_iff.mpr nonempty, (ih child member).2.1⟩
      · obtain ⟨child, member⟩ := List.exists_mem_of_ne_nil _ nonempty
        obtain ⟨size, inner, rfl⟩ := List.exists_cons_of_ne_nil (each child member).shape_ne_nil
        have count : (children.map Prod.snd).length = children.length := List.length_map ..
        rw [rebuild, flat, ← count, RowMajor.rows_flatten wide, List.map_map]
        · congr 1
          apply List.map_congr_left
          intro other listed
          exact (ih other listed).2.2
        · simp

/-! ## Images and their nested lists -/

theorem Nested.map {ι : Type} {items : List ι} {size : Nat} {shape : List Nat}
    {value : ι → Value φ} {raw : ι → List Base64.Byte} (length : items.length = size)
    (positive : 0 < size) (each : ∀ item ∈ items, Nested shape (value item) (raw item)) :
    Nested (size :: shape) (.arr (items.map value)) (items.map raw).flatten := by
  have node := @Nested.node φ shape (items.map fun item => (value item, raw item)) (by
      intro empty
      rw [List.map_eq_nil_iff] at empty
      rw [empty, List.length_nil] at length
      omega) (by
      intro child listed
      obtain ⟨item, member, rfl⟩ := List.mem_map.mp listed
      exact each item member)
  simpa [length, List.flatMap_map, List.flatMap_def, Function.comp_def] using node

namespace Image

theorem nested_shape (image : Image) :
    Nested [image.height, image.width, 3] (image.nested : Value φ) image.bytes := by
  have rows : ∀ row ∈ image.rows, Nested [image.width, 3]
      (.arr (row.map fun pixel => .arr (pixel.map fun byte => Value.int (φ := φ) byte.val)))
        row.flatten := by
    intro row listed
    have pixels : ∀ pixel ∈ row,
        Nested [3] (.arr (pixel.map fun byte => Value.int (φ := φ) byte.val)) (id pixel) := by
      intro pixel member
      have three := image.channels row listed pixel member
      rw [← three]
      apply Nested.cells
      rintro rfl
      contradiction
    have joined := Nested.map (image.wide row listed) image.positive.2 pixels
    rwa [List.map_id] at joined
  have joined := Nested.map image.tall image.positive.1 rows
  rwa [← List.flatten_flatten] at joined

theorem length_bytes (image : Image) : image.bytes.length = image.height * image.width * 3 := by
  have shape := (image.nested_shape (φ := Unit)).rebuilt.1
  rw [shape]
  simp [Nat.mul_assoc]

/-- The image with given bytes. -/
def ofBytes (height width : Nat) (raw : List Base64.Byte) (positive : 0 < height ∧ 0 < width)
    (filled : raw.length = height * (width * 3)) : Image where
  height := height
  width := width
  rows := (RowMajor.rows height (width * 3) raw).map (RowMajor.rows width 3)
  positive := positive
  tall := by rw [List.length_map, RowMajor.length_rows]
  wide := by
    intro row listed
    obtain ⟨cells, member, rfl⟩ := List.mem_map.mp listed
    exact RowMajor.length_rows _ _ _
  channels := by
    intro row listed pixel pixelListed
    obtain ⟨cells, member, rfl⟩ := List.mem_map.mp listed
    exact RowMajor.length_of_mem_rows (RowMajor.length_of_mem_rows filled member) pixelListed

variable {height width : Nat} {raw : List Base64.Byte} {positive : 0 < height ∧ 0 < width}
  {filled : raw.length = height * (width * 3)}

theorem nested_ofBytes :
    ((ofBytes height width raw positive filled).nested : Value φ) =
      rebuild [height, width, 3] raw := by
  simp [nested, ofBytes, rebuild, Function.comp_def]

theorem bytes_ofBytes : (ofBytes height width raw positive filled).bytes = raw := by
  have rows : ∀ cells ∈ RowMajor.rows height (width * 3) raw,
      (List.flatten ∘ RowMajor.rows width 3) cells = id cells := fun cells listed =>
    RowMajor.flatten_rows (RowMajor.length_of_mem_rows filled listed)
  rw [bytes, ofBytes, List.flatten_flatten, List.map_map, List.map_congr_left rows, List.map_id,
    RowMajor.flatten_rows filled]

end Image

/-- Nested lists with three channels are an image. -/
theorem nested_iff {value : Value φ} {height width : Nat} {raw : List Base64.Byte} :
    Nested [height, width, 3] value raw ↔
      ∃ image : Image, image.height = height ∧ image.width = width ∧ image.bytes = raw ∧
        value = image.nested := by
  constructor
  · intro nested
    obtain ⟨filled, positive, same⟩ := nested.rebuilt
    have sides : 0 < height ∧ 0 < width := ⟨positive _ (by simp), positive _ (by simp)⟩
    have filled : raw.length = height * (width * 3) := by simpa using filled
    exact ⟨.ofBytes height width raw sides filled, rfl, rfl, Image.bytes_ofBytes,
      by rw [Image.nested_ofBytes, same]⟩
  · rintro ⟨image, rfl, rfl, rfl, rfl⟩
    exact image.nested_shape

/-! ## Envelopes -/

/-- The code points of canonical base64. -/
def encoded (raw : List Base64.Byte) : List Json.Point := (Base64.encode raw).map Json.pointOf

theorem b64decode_encoded (raw : List Base64.Byte) : b64decode ⟨encoded raw⟩ = some raw := by
  have chars : (PyStr.mk (encoded raw)).chars = some (Base64.encode raw) := PyStr.chars_ofChars _
  rw [b64decode, chars, Option.bind_some, Base64.decode_encode]

theorem declaredShape_ok {value : Value φ} {shape : List Nat}
    (declared : declaredShape value = some shape) :
    ∃ height width, 0 < height ∧ 0 < width ∧ shape = [height, width, 3] ∧
      value = sizes [height, width, 3] := by
  unfold declaredShape at declared
  split at declared
  · rename_i height width channels
    split at declared
    · rename_i positive
      obtain ⟨tall, wide, rfl⟩ := positive
      obtain rfl := Option.some.inj declared
      refine ⟨height.toNat, width.toNat, by omega, by omega, rfl, ?_⟩
      have height' : (height.toNat : Int) = height := Int.toNat_of_nonneg (by omega)
      have width' : (width.toNat : Int) = width := Int.toNat_of_nonneg (by omega)
      simp [sizes, height', width']
    · contradiction
  · contradiction

theorem declaredShape_sizes {height width : Nat} (positive : 0 < height ∧ 0 < width) :
    declaredShape (sizes [height, width, 3] : Value φ) = some [height, width, 3] := by
  simp only [sizes, List.map_cons, List.map_nil, declaredShape]
  rw [if_pos (by omega), Int.toNat_natCast, Int.toNat_natCast]

/-- What is checked of the bytes in an envelope. -/
theorem imageEnvelope_obj {members : Dict φ} {data : List Json.Point} {shape : List Nat}
    (exactly : Dict.hasExactly members ["__ndarray__", "dtype", "shape"] = true)
    (dtypeEq : Dict.get members "dtype" = .str (field "uint8"))
    (dataEq : Dict.get members "__ndarray__" = .str data)
    (shapeEq : declaredShape (Dict.get members "shape") = some shape) :
    imageEnvelope (.obj members) =
      match b64decode ⟨data⟩ with
      | none => .error (.valueError "Native policy image envelope has invalid base64")
      | some raw =>
          if raw.length ≠ shape.prod ∨ maxImageBytes < raw.length then
            .error (.valueError "Native policy image envelope byte bound mismatch")
          else .ok (envelope data shape) := by
  rw [imageEnvelope, if_pos exactly, dtypeEq, dataEq]
  simp only [if_true, shapeEq]

/-- An envelope with an image in it. -/
structure Enveloped (value : Value φ) (data : List Json.Point) (height width : Nat)
    (raw : List Base64.Byte) : Prop where
  same : value = envelope data [height, width, 3]
  positive : 0 < height ∧ 0 < width
  decoded : b64decode ⟨data⟩ = some raw
  filled : raw.length = [height, width, 3].prod
  bounded : raw.length ≤ maxImageBytes

/-- Reading an envelope of a shape, within the bound or not. -/
theorem imageEnvelope_envelope {data : List Json.Point} {height width : Nat}
    {raw : List Base64.Byte} (positive : 0 < height ∧ 0 < width)
    (decoded : b64decode ⟨data⟩ = some raw) (filled : raw.length = [height, width, 3].prod) :
    imageEnvelope (envelope data [height, width, 3] : Value φ) =
      if maxImageBytes < raw.length then
        .error (.valueError "Native policy image envelope byte bound mismatch")
      else .ok (envelope data [height, width, 3]) := by
  have shape : declaredShape (Dict.get [(field "__ndarray__", (.str data : Value φ)),
      (field "dtype", .str (field "uint8")), (field "shape", sizes [height, width, 3])] "shape") =
        some [height, width, 3] := declaredShape_sizes positive
  rw [envelope, imageEnvelope_obj rfl rfl rfl shape, decoded]
  simp only [filled, ne_eq, not_true, false_or, envelope]

theorem Enveloped.accepted {value : Value φ} {data : List Json.Point} {height width : Nat}
    {raw : List Base64.Byte} (enveloped : Enveloped value data height width raw) :
    imageEnvelope value = .ok value := by
  obtain ⟨rfl, positive, decoded, filled, bounded⟩ := enveloped
  rw [imageEnvelope_envelope positive decoded filled, if_neg (not_lt.mpr bounded)]

/-- Every list is rejected but the nested lists of an image within the bound. -/
theorem imageEnvelope_arr {items : List (Value φ)} {normalized : Value φ} :
    imageEnvelope (.arr items) = .ok normalized ↔
      ∃ image : Image, .arr items = (image.nested : Value φ) ∧
        image.bytes.length ≤ maxImageBytes ∧ normalized = image.canonicalEnvelope := by
  rw [imageEnvelope, bind_ok_iff]
  constructor
  · rintro ⟨⟨shape, raw⟩, read, checked⟩
    dsimp only at checked
    split at checked
    · contradiction
    · rename_i passes
      obtain rfl := Except.ok.inj checked
      simp only [not_or, not_not, not_lt] at passes
      obtain ⟨three, last, bounded⟩ := passes
      obtain ⟨height, width, channels, rfl⟩ := List.length_eq_three.mp three
      obtain rfl : channels = 3 := by simpa using last
      obtain ⟨image, rfl, rfl, rfl, same⟩ := nested_iff.mp (nestedUint8_iff.mp read)
      exact ⟨image, same, bounded, rfl⟩
  · rintro ⟨image, same, bounded, rfl⟩
    refine ⟨([image.height, image.width, 3], image.bytes), ?_, ?_⟩
    · rw [same]
      exact nestedUint8_iff.mpr image.nested_shape
    · dsimp only
      rw [if_neg (by simpa using bounded)]
      rfl

theorem Image.enveloped (image : Image) (bounded : image.bytes.length ≤ maxImageBytes) :
    Enveloped (image.canonicalEnvelope : Value φ) (encoded image.bytes) image.height image.width
      image.bytes where
  same := rfl
  positive := image.positive
  decoded := b64decode_encoded _
  filled := by simp [image.length_bytes, Nat.mul_assoc]
  bounded := bounded

/-- Whatever is accepted becomes an envelope with an image in it. -/
theorem imageEnvelope_ok {value normalized : Value φ}
    (accepted : imageEnvelope value = .ok normalized) :
    ∃ data height width raw, Enveloped normalized data height width raw ∧
      (data = encoded raw ∨
        ∃ members, value = .obj members ∧ Dict.get members "__ndarray__" = .str data) := by
  cases value with
  | arr items =>
      obtain ⟨image, -, bounded, rfl⟩ := imageEnvelope_arr.mp accepted
      exact ⟨_, _, _, _, image.enveloped bounded, .inl rfl⟩
  | obj members =>
      unfold imageEnvelope at accepted
      simp only at accepted
      split at accepted
      swap
      · contradiction
      split at accepted
      swap
      · contradiction
      rename_i dtype data dtypeEq dataEq
      split at accepted
      swap
      · contradiction
      split at accepted
      · contradiction
      rename_i shape shapeEq
      split at accepted
      · contradiction
      rename_i raw decoded
      split at accepted
      · contradiction
      rename_i checked
      obtain rfl := Except.ok.inj accepted
      obtain ⟨height, width, tall, wide, rfl, -⟩ := declaredShape_ok shapeEq
      simp only [not_or, ne_eq, not_not, not_lt] at checked
      exact ⟨data, height, width, raw, ⟨rfl, ⟨tall, wide⟩, decoded, checked.1, checked.2⟩,
        .inr ⟨members, rfl, dataEq⟩⟩
  | _ => contradiction

theorem Image.readBack_canonicalEnvelope (image : Image) :
    readBack (image.canonicalEnvelope : Value φ) = some image.rows := by
  have tall := image.tall
  have width : ∀ row ∈ image.rows, row.length = image.width := image.wide
  have channels : ∀ pixel ∈ image.rows.flatten, pixel.length = 3 := by
    intro pixel listed
    obtain ⟨row, member, inner⟩ := List.mem_flatten.mp listed
    exact image.channels row member pixel inner
  have pixels : image.rows.flatten.length = image.height * image.width := by
    rw [RowMajor.length_flatten width, tall]
  have decoded := b64decode_encoded image.bytes
  have shape := declaredShape_sizes (φ := φ) image.positive
  show (match declaredShape (sizes [image.height, image.width, 3] : Value φ),
    (Value.str (encoded image.bytes) : Value φ) with
    | some [height, width, channels], .str data =>
        (b64decode ⟨data⟩).map fun raw =>
          RowMajor.rows height width (RowMajor.rows (height * width) channels raw)
    | _, _ => none) = _
  rw [shape]
  simp only [decoded, Option.map_some]
  rw [Image.bytes, ← pixels, RowMajor.rows_flatten channels, ← tall, RowMajor.rows_flatten width]

end

end AgminaRuntime
