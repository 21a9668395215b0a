import Mathlib.Algebra.Order.Ring.Int

/-!
# Fixed ranges

Bytes and Unicode code points are residues below fixed bounds that are not
zero.
-/

instance neZero_codePoints : NeZero 0x110000 := ⟨by decide⟩

instance neZero_bytes : NeZero 256 := ⟨by decide⟩
