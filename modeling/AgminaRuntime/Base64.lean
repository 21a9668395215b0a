import AgminaRuntime.CodePoints
import Mathlib.Algebra.Order.Ring.Int
import Mathlib.Data.List.Basic

/-!
# Base64

The alphabet of RFC 4648 with its padding.  The decoder is the strict one: it
takes whole groups of four characters, padding only at the end and nothing
behind it, and ignores the bits that padding leaves over.
-/

namespace Base64

abbrev Byte := Fin 256

def alphabet : List Char :=
  "ABCDEFGHIJKLMNOPQRSTUVWXYZabcdefghijklmnopqrstuvwxyz0123456789+/".toList

def encodeDigit (digit : Nat) : Char := alphabet.getD digit '='

def decodeDigit (char : Char) : Option Nat := alphabet.idxOf? char

/-- A byte from a number below 256. -/
def byte (value : Nat) : Byte := Fin.ofNat 256 value

def encode : List Byte → List Char
  | [] => []
  | [first] => [encodeDigit (first.val / 4), encodeDigit (first.val % 4 * 16), '=', '=']
  | [first, second] =>
      [encodeDigit (first.val / 4), encodeDigit (first.val % 4 * 16 + second.val / 16),
        encodeDigit (second.val % 16 * 4), '=']
  | first :: second :: third :: rest =>
      encodeDigit (first.val / 4) :: encodeDigit (first.val % 4 * 16 + second.val / 16) ::
        encodeDigit (second.val % 16 * 4 + third.val / 64) :: encodeDigit (third.val % 64) ::
          encode rest

def decode : List Char → Option (List Byte)
  | [] => some []
  | first :: second :: third :: fourth :: rest =>
      if fourth = '=' ∧ rest = [] then
        if third = '=' then do
          let first ← decodeDigit first
          let second ← decodeDigit second
          pure [byte (first * 4 + second / 16)]
        else do
          let first ← decodeDigit first
          let second ← decodeDigit second
          let third ← decodeDigit third
          pure [byte (first * 4 + second / 16), byte (second % 16 * 16 + third / 4)]
      else do
        let first ← decodeDigit first
        let second ← decodeDigit second
        let third ← decodeDigit third
        let fourth ← decodeDigit fourth
        let rest ← decode rest
        pure (byte (first * 4 + second / 16) :: byte (second % 16 * 16 + third / 4) ::
          byte (third % 4 * 64 + fourth) :: rest)
  | _ => none

/-! ## Digits -/

theorem decodeDigit_encodeDigit {digit : Nat} (small : digit < 64) :
    decodeDigit (encodeDigit digit) = some digit := by
  have all : ∀ digit < 64, decodeDigit (encodeDigit digit) = some digit := by decide +kernel
  exact all digit small

theorem encodeDigit_ne_pad {digit : Nat} (small : digit < 64) : encodeDigit digit ≠ '=' := by
  have all : ∀ digit < 64, encodeDigit digit ≠ '=' := by decide +kernel
  exact all digit small

theorem byte_eq {value : Nat} {target : Byte} (same : value = target.val) :
    byte value = target := by
  subst same
  simp [byte]

/-! ## What is encoded is decoded -/

theorem decode_encode (bytes : List Byte) : decode (encode bytes) = some bytes := by
  fun_induction encode bytes with
  | case1 => rfl
  | case2 first =>
      have bound := first.isLt
      simp only [decode, decodeDigit_encodeDigit (show first.val / 4 < 64 by omega),
        decodeDigit_encodeDigit (show first.val % 4 * 16 < 64 by omega), and_self, if_true,
        Option.bind_eq_bind, Option.bind_some, Option.pure_def]
      rw [byte_eq]
      omega
  | case3 first second =>
      have bound := first.isLt
      have bound' := second.isLt
      have third : second.val % 16 * 4 < 64 := by omega
      simp only [decode, decodeDigit_encodeDigit (show first.val / 4 < 64 by omega),
        decodeDigit_encodeDigit (show first.val % 4 * 16 + second.val / 16 < 64 by omega),
        decodeDigit_encodeDigit third, encodeDigit_ne_pad third, and_self, if_true, if_false,
        Option.bind_eq_bind, Option.bind_some, Option.pure_def]
      rw [@byte_eq _ first (by omega), @byte_eq _ second (by omega)]
  | case4 first second third rest ih =>
      have bound := first.isLt
      have bound' := second.isLt
      have bound'' := third.isLt
      have fourth : third.val % 64 < 64 := by omega
      simp only [decode, decodeDigit_encodeDigit (show first.val / 4 < 64 by omega),
        decodeDigit_encodeDigit (show first.val % 4 * 16 + second.val / 16 < 64 by omega),
        decodeDigit_encodeDigit (show second.val % 16 * 4 + third.val / 64 < 64 by omega),
        decodeDigit_encodeDigit fourth, encodeDigit_ne_pad fourth, false_and, if_false, ih,
        Option.bind_eq_bind, Option.bind_some, Option.pure_def]
      rw [@byte_eq _ first (by omega), @byte_eq _ second (by omega), @byte_eq _ third (by omega)]

end Base64
