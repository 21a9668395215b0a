import Mathlib.Algebra.Order.Ring.Int
import Mathlib.Data.List.Basic

/-!
# Incremental UTF-8 decoding

A decoder that is fed a text in pieces keeps the bytes of the character it is
in the middle of.  It refuses a byte as soon as no continuation can make the
bytes that it keeps a character.  What it decodes does not depend on where the
pieces end, and it accepts the encoding of every text and nothing else.
-/

namespace Utf8

/-- The encoding of a text. -/
def encode (text : List Char) : List UInt8 := text.flatMap String.utf8EncodeChar

/-- A byte behind the first one. -/
def isTail (byte : UInt8) : Bool := 0x80 ≤ byte.toNat && byte.toNat ≤ 0xBF

/-- A second byte of three or four: behind four of the first bytes its range is
smaller, as the character would have a shorter encoding, be a surrogate or lie
beyond the last code point. -/
def isSecond (first second : UInt8) : Bool :=
  isTail second && (first.toNat ≠ 0xE0 || 0xA0 ≤ second.toNat) &&
    (first.toNat ≠ 0xED || second.toNat ≤ 0x9F) &&
      (first.toNat ≠ 0xF0 || 0x90 ≤ second.toNat) &&
        (first.toNat ≠ 0xF4 || second.toNat ≤ 0x8F)

/-- What the bytes since the last character are. -/
inductive Reading where
  | char (char : Char)
  | unfinished
  | invalid
  deriving DecidableEq

/-- Reads the bytes since the last character; all but the last of them are known
to be unfinished. -/
def read : List UInt8 → Reading
  | [a] =>
      if a.toNat < 0x80 then .char (Char.ofNat a.toNat)
      else if 0xC2 ≤ a.toNat ∧ a.toNat ≤ 0xF4 then .unfinished else .invalid
  | [a, b] =>
      if a.toNat < 0xE0 then
        if isTail b then .char (Char.ofNat ((a.toNat - 0xC0) * 64 + (b.toNat - 0x80)))
        else .invalid
      else if isSecond a b then .unfinished else .invalid
  | [a, b, c] =>
      if isTail c then
        if a.toNat < 0xF0 then
          .char (Char.ofNat ((a.toNat - 0xE0) * 4096 + (b.toNat - 0x80) * 64 + (c.toNat - 0x80)))
        else .unfinished
      else .invalid
  | [a, b, c, d] =>
      if isTail d then
        .char (Char.ofNat ((a.toNat - 0xF0) * 262144 + (b.toNat - 0x80) * 4096 +
          (c.toNat - 0x80) * 64 + (d.toNat - 0x80)))
      else .invalid
  | _ => .invalid

/-- Feeds bytes to a decoder that keeps `pending`: the characters that they
finish and the bytes that are kept, unless a byte is refused. -/
def feed (pending : List UInt8) : List UInt8 → Option (List Char × List UInt8)
  | [] => some ([], pending)
  | byte :: bytes =>
      match read (pending ++ [byte]) with
      | .char char => (feed [] bytes).map fun (text, kept) => (char :: text, kept)
      | .unfinished => feed (pending ++ [byte]) bytes
      | .invalid => none

/-! ## Feeding in pieces -/

theorem feed_append (pending first second : List UInt8) :
    feed pending (first ++ second) =
      (feed pending first).bind fun (text, kept) =>
        (feed kept second).map fun (more, last) => (text ++ more, last) := by
  induction first generalizing pending with
  | nil => cases feed pending second <;> simp [feed]
  | cons byte first ih =>
      rw [List.cons_append, feed, feed]
      cases read (pending ++ [byte]) with
      | char char =>
          rw [ih]
          cases feed [] first with
          | none => rfl
          | some decoded =>
              obtain ⟨text, kept⟩ := decoded
              simp only [Option.bind_some, Option.map_some]
              cases feed kept second <;> rfl
      | unfinished => exact ih _
      | invalid => rfl

/-! ## Every encoding is accepted -/

theorem isTail_iff {byte : UInt8} : isTail byte = true ↔ 0x80 ≤ byte.toNat ∧ byte.toNat ≤ 0xBF := by
  simp [isTail]

theorem ofNat_val (char : Char) : Char.ofNat char.val.toNat = char := Char.ofNat_toNat char

/-- A code point is no surrogate and not beyond the last one. -/
theorem scalar (char : Char) :
    char.val.toNat < 0xD800 ∨ (0xDFFF < char.val.toNat ∧ char.val.toNat < 0x110000) :=
  char.valid

theorem toNat_byte {value : Nat} (small : value < 256) : (UInt8.ofNat value).toNat = value := by
  simp [UInt8.toNat_ofNat', Nat.mod_eq_of_lt small]

/-- `char` behind what a decoder finishes. -/
theorem feed_one {a : UInt8} (lead : a.toNat < 0x80) (bytes : List UInt8) :
    feed [] (a :: bytes) =
      (feed [] bytes).map fun (text, kept) => (Char.ofNat a.toNat :: text, kept) := by
  simp only [feed, List.nil_append, read, if_pos lead]

theorem feed_two {a b : UInt8} (lead : 0xC2 ≤ a.toNat ∧ a.toNat < 0xE0) (tail : isTail b = true)
    (bytes : List UInt8) :
    feed [] (a :: b :: bytes) = (feed [] bytes).map fun (text, kept) =>
      (Char.ofNat ((a.toNat - 0xC0) * 64 + (b.toNat - 0x80)) :: text, kept) := by
  have first : read [a] = .unfinished := by
    rw [read, if_neg (by omega), if_pos (by omega)]
  have second : read [a, b] = .char (Char.ofNat ((a.toNat - 0xC0) * 64 + (b.toNat - 0x80))) := by
    rw [read, if_pos lead.2, if_pos tail]
  simp only [feed, List.nil_append, List.cons_append, first, second]

theorem feed_three {a b c : UInt8} (lead : 0xE0 ≤ a.toNat ∧ a.toNat < 0xF0)
    (next : isSecond a b = true) (tail : isTail c = true) (bytes : List UInt8) :
    feed [] (a :: b :: c :: bytes) = (feed [] bytes).map fun (text, kept) =>
      (Char.ofNat ((a.toNat - 0xE0) * 4096 + (b.toNat - 0x80) * 64 + (c.toNat - 0x80)) :: text,
        kept) := by
  have first : read [a] = .unfinished := by
    rw [read, if_neg (by omega), if_pos (by omega)]
  have second : read [a, b] = .unfinished := by
    rw [read, if_neg (by omega), if_pos next]
  have third : read [a, b, c] = .char (Char.ofNat ((a.toNat - 0xE0) * 4096 +
      (b.toNat - 0x80) * 64 + (c.toNat - 0x80))) := by
    rw [read, if_pos tail, if_pos lead.2]
  simp only [feed, List.nil_append, List.cons_append, first, second, third]

theorem feed_four {a b c d : UInt8} (lead : 0xF0 ≤ a.toNat ∧ a.toNat ≤ 0xF4)
    (next : isSecond a b = true) (tail : isTail c = true) (last : isTail d = true)
    (bytes : List UInt8) :
    feed [] (a :: b :: c :: d :: bytes) = (feed [] bytes).map fun (text, kept) =>
      (Char.ofNat ((a.toNat - 0xF0) * 262144 + (b.toNat - 0x80) * 4096 + (c.toNat - 0x80) * 64 +
        (d.toNat - 0x80)) :: text, kept) := by
  have first : read [a] = .unfinished := by
    rw [read, if_neg (by omega), if_pos (by omega)]
  have second : read [a, b] = .unfinished := by
    rw [read, if_neg (by omega), if_pos next]
  have third : read [a, b, c] = .unfinished := by
    rw [read, if_pos tail, if_neg (by omega)]
  have fourth : read [a, b, c, d] = .char (Char.ofNat ((a.toNat - 0xF0) * 262144 +
      (b.toNat - 0x80) * 4096 + (c.toNat - 0x80) * 64 + (d.toNat - 0x80))) := by
    rw [read, if_pos last]
  simp only [feed, List.nil_append, List.cons_append, first, second, third, fourth]

theorem isSecond_iff {first second : UInt8} :
    isSecond first second = true ↔
      (0x80 ≤ second.toNat ∧ second.toNat ≤ 0xBF) ∧
        (first.toNat = 0xE0 → 0xA0 ≤ second.toNat) ∧ (first.toNat = 0xED → second.toNat ≤ 0x9F) ∧
          (first.toNat = 0xF0 → 0x90 ≤ second.toNat) ∧
            (first.toNat = 0xF4 → second.toNat ≤ 0x8F) := by
  simp only [isSecond, Bool.and_eq_true, isTail_iff, Bool.or_eq_true, decide_eq_true_eq,
    ← imp_iff_not_or, and_assoc, ne_eq]

theorem feed_encodeChar (char : Char) (bytes : List UInt8) :
    feed [] (String.utf8EncodeChar char ++ bytes) =
      (feed [] bytes).map fun (text, kept) => (char :: text, kept) := by
  have whole := ofNat_val char
  have range := scalar char
  unfold String.utf8EncodeChar
  generalize char.val.toNat = value at whole range
  simp only
  split
  · rename_i small
    have lead : (UInt8.ofNat value).toNat = value := toNat_byte (by omega)
    rw [List.cons_append, List.nil_append, feed_one (by omega), lead, whole]
  split
  · rename_i large small
    have lead : (UInt8.ofNat (value / 64 % 0x20 + 0xC0)).toNat = value / 64 % 0x20 + 0xC0 :=
      toNat_byte (by omega)
    have tail : (UInt8.ofNat (value % 0x40 + 0x80)).toNat = value % 0x40 + 0x80 :=
      toNat_byte (by omega)
    have joined : (value / 64 % 0x20 + 0xC0 - 0xC0) * 64 + (value % 0x40 + 0x80 - 0x80) =
        value := by omega
    simp only [List.cons_append, List.nil_append]
    rw [feed_two (by omega) (by rw [isTail_iff]; omega), lead, tail, joined, whole]
  split
  · rename_i large larger small
    have lead : (UInt8.ofNat (value / 4096 % 0x10 + 0xE0)).toNat = value / 4096 % 0x10 + 0xE0 :=
      toNat_byte (by omega)
    have next : (UInt8.ofNat (value / 64 % 0x40 + 0x80)).toNat = value / 64 % 0x40 + 0x80 :=
      toNat_byte (by omega)
    have tail : (UInt8.ofNat (value % 0x40 + 0x80)).toNat = value % 0x40 + 0x80 :=
      toNat_byte (by omega)
    have joined : (value / 4096 % 0x10 + 0xE0 - 0xE0) * 4096 +
        (value / 64 % 0x40 + 0x80 - 0x80) * 64 + (value % 0x40 + 0x80 - 0x80) = value := by omega
    simp only [List.cons_append, List.nil_append]
    rw [feed_three (by omega) (by rw [isSecond_iff]; omega) (by rw [isTail_iff]; omega), lead,
      next, tail, joined, whole]
  · rename_i large larger largest
    have lead : (UInt8.ofNat (value / 262144 % 0x08 + 0xF0)).toNat =
        value / 262144 % 0x08 + 0xF0 := toNat_byte (by omega)
    have next : (UInt8.ofNat (value / 4096 % 0x40 + 0x80)).toNat = value / 4096 % 0x40 + 0x80 :=
      toNat_byte (by omega)
    have third : (UInt8.ofNat (value / 64 % 0x40 + 0x80)).toNat = value / 64 % 0x40 + 0x80 :=
      toNat_byte (by omega)
    have tail : (UInt8.ofNat (value % 0x40 + 0x80)).toNat = value % 0x40 + 0x80 :=
      toNat_byte (by omega)
    have joined : (value / 262144 % 0x08 + 0xF0 - 0xF0) * 262144 +
        (value / 4096 % 0x40 + 0x80 - 0x80) * 4096 + (value / 64 % 0x40 + 0x80 - 0x80) * 64 +
          (value % 0x40 + 0x80 - 0x80) = value := by omega
    simp only [List.cons_append, List.nil_append]
    rw [feed_four (by omega) (by rw [isSecond_iff]; omega) (by rw [isTail_iff]; omega)
      (by rw [isTail_iff]; omega), lead, next, third, tail, joined, whole]

/-- A decoder takes the encoding of a text back to the text. -/
theorem feed_encode (text : List Char) : feed [] (encode text) = some (text, []) := by
  induction text with
  | nil => rfl
  | cons char text ih =>
      have step := feed_encodeChar char (encode text)
      rw [ih] at step
      exact step

/-! ## Nothing else is accepted -/

/-- The bytes that a decoder can keep. -/
inductive Pending : List UInt8 → Prop
  | none : Pending []
  | one {a : UInt8} (lead : 0xC2 ≤ a.toNat ∧ a.toNat ≤ 0xF4) : Pending [a]
  | two {a b : UInt8} (lead : 0xE0 ≤ a.toNat ∧ a.toNat ≤ 0xF4) (next : isSecond a b = true) :
      Pending [a, b]
  | three {a b c : UInt8} (lead : 0xF0 ≤ a.toNat ∧ a.toNat ≤ 0xF4) (next : isSecond a b = true)
      (tail : isTail c = true) : Pending [a, b, c]

theorem pending_of_unfinished {pending : List UInt8} {byte : UInt8} (keeps : Pending pending)
    (unfinished : read (pending ++ [byte]) = .unfinished) : Pending (pending ++ [byte]) := by
  cases keeps with
  | none =>
      simp only [List.nil_append, read] at unfinished
      split_ifs at unfinished with small lead
      exact .one lead
  | one lead =>
      simp only [List.cons_append, List.nil_append, read] at unfinished
      split_ifs at unfinished with small tail next
      exact .two ⟨by omega, lead.2⟩ next
  | two lead next =>
      simp only [List.cons_append, List.nil_append, read] at unfinished
      split_ifs at unfinished with tail small
      exact .three ⟨by omega, lead.2⟩ next tail
  | three lead next tail =>
      simp only [List.cons_append, List.nil_append, read] at unfinished
      split_ifs at unfinished

theorem byte_of {byte : UInt8} {value : Nat} (same : value = byte.toNat) :
    UInt8.ofNat value = byte := by
  rw [same, UInt8.ofNat_toNat]

theorem val_ofNat {value : Nat} (range : value < 0xD800 ∨ 0xDFFF < value ∧ value < 0x110000) :
    (Char.ofNat value).val.toNat = value := by
  have valid : value.isValidChar := range
  rw [Char.ofNat, dif_pos valid]
  exact UInt32.toNat_ofNatLT

/-- The bytes of a character are its encoding. -/
theorem encodeChar_of_char {pending : List UInt8} {byte : UInt8} {char : Char}
    (keeps : Pending pending) (finished : read (pending ++ [byte]) = .char char) :
    String.utf8EncodeChar char = pending ++ [byte] := by
  cases keeps with
  | none =>
      simp only [List.nil_append, read] at finished ⊢
      split_ifs at finished with small lead
      obtain rfl := Reading.char.inj finished
      have value := val_ofNat (Or.inl (show byte.toNat < 0xD800 by omega))
      rw [String.utf8EncodeChar, value]
      simp only [if_pos (show byte.toNat ≤ 0x7F by omega), UInt8.ofNat_toNat]
  | @one a lead =>
      simp only [List.cons_append, List.nil_append, read] at finished ⊢
      split_ifs at finished with small tail next
      obtain rfl := Reading.char.inj finished
      rw [isTail_iff] at tail
      have value := val_ofNat (Or.inl (show (a.toNat - 0xC0) * 64 + (byte.toNat - 0x80) < 0xD800 by
        omega))
      rw [String.utf8EncodeChar, value]
      simp only [
        if_neg (show ¬ (a.toNat - 0xC0) * 64 + (byte.toNat - 0x80) ≤ 0x7F by omega),
        if_pos (show (a.toNat - 0xC0) * 64 + (byte.toNat - 0x80) ≤ 0x7FF by omega)]
      rw [@byte_of a _ (by omega), @byte_of byte _ (by omega)]
  | @two a b lead next =>
      simp only [List.cons_append, List.nil_append, read] at finished ⊢
      split_ifs at finished with tail small
      obtain rfl := Reading.char.inj finished
      rw [isTail_iff] at tail
      rw [isSecond_iff] at next
      obtain ⟨value, same⟩ : ∃ value, value =
          (a.toNat - 0xE0) * 4096 + (b.toNat - 0x80) * 64 + (byte.toNat - 0x80) := ⟨_, rfl⟩
      rw [← same]
      rw [String.utf8EncodeChar, val_ofNat (by omega)]
      simp only [if_neg (show ¬ value ≤ 0x7F by omega), if_neg (show ¬ value ≤ 0x7FF by omega),
        if_pos (show value ≤ 0xFFFF by omega)]
      rw [@byte_of a _ (by omega), @byte_of b _ (by omega),
        @byte_of byte _ (by omega)]
  | @three a b c lead next tail =>
      simp only [List.cons_append, List.nil_append, read] at finished ⊢
      split_ifs at finished with last
      obtain rfl := Reading.char.inj finished
      rw [isTail_iff] at tail last
      rw [isSecond_iff] at next
      obtain ⟨value, same⟩ : ∃ value, value = (a.toNat - 0xF0) * 262144 +
          (b.toNat - 0x80) * 4096 + (c.toNat - 0x80) * 64 + (byte.toNat - 0x80) := ⟨_, rfl⟩
      rw [← same]
      rw [String.utf8EncodeChar, val_ofNat (by omega)]
      simp only [if_neg (show ¬ value ≤ 0x7F by omega), if_neg (show ¬ value ≤ 0x7FF by omega),
        if_neg (show ¬ value ≤ 0xFFFF by omega)]
      rw [@byte_of a _ (by omega), @byte_of b _ (by omega),
        @byte_of c _ (by omega), @byte_of byte _ (by omega)]

/-- What was fed is the encoding of what was decoded and the bytes that are kept. -/
theorem encode_of_feed {pending bytes : List UInt8} {text : List Char} {kept : List UInt8}
    (keeps : Pending pending) (fed : feed pending bytes = some (text, kept)) :
    pending ++ bytes = encode text ++ kept := by
  induction bytes generalizing pending text with
  | nil =>
      simp only [feed, Option.some.injEq, Prod.mk.injEq] at fed
      obtain ⟨rfl, rfl⟩ := fed
      simp [encode]
  | cons byte bytes ih =>
      rw [feed] at fed
      cases reading : read (pending ++ [byte]) with
      | char char =>
          rw [reading] at fed
          obtain ⟨⟨more, last⟩, rest, same⟩ := Option.map_eq_some_iff.mp fed
          simp only [Prod.mk.injEq] at same
          obtain ⟨rfl, rfl⟩ := same
          have whole := ih .none rest
          rw [List.nil_append] at whole
          rw [show encode (char :: more) = String.utf8EncodeChar char ++ encode more from rfl,
            encodeChar_of_char keeps reading, whole]
          simp only [List.append_assoc, List.cons_append, List.nil_append]
      | unfinished =>
          rw [reading] at fed
          have whole := ih (pending_of_unfinished keeps reading) fed
          rw [← whole]
          simp only [List.append_assoc, List.cons_append, List.nil_append]
      | invalid =>
          rw [reading] at fed
          contradiction

/-- A decoder ends between two characters exactly on the encoding of what it
decoded. -/
theorem feed_iff {bytes : List UInt8} {text : List Char} :
    feed [] bytes = some (text, []) ↔ bytes = encode text := by
  constructor
  · intro fed
    have whole := encode_of_feed .none fed
    rwa [List.nil_append, List.append_nil] at whole
  · rintro rfl
    exact feed_encode text

end Utf8
