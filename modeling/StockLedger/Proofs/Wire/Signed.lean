import Mathlib.Tactic.Common
import StockLedger.Wire.Signed

/-!
# Words with a sign and without

* `signed64_neg_iff` : the upper half of the words is negative;
* `signed64_mem` : a word with a sign fits 64 bits;
* `ofNat_toNat_signed64`, `signed64_inj` : the lower half is read back, and no two words are mixed
  up.
-/

namespace StockLedger

theorem signed64_neg_iff (w : UInt64) : signed64 w < 0 ↔ ¬ w.toNat < signBit := by
  have hw := w.toNat_lt
  have hbit : signBit = 9223372036854775808 := rfl
  unfold signed64
  split <;> omega

theorem signed64_mem (w : UInt64) :
    -9223372036854775808 ≤ signed64 w ∧ signed64 w ≤ 9223372036854775807 := by
  have hw := w.toNat_lt
  have hbit : signBit = 9223372036854775808 := rfl
  unfold signed64
  split <;> omega

theorem ofNat_toNat_signed64 {w : UInt64} (h : w.toNat < signBit) :
    UInt64.ofNat (signed64 w).toNat = w := by
  rw [signed64_of_lt h, Int.toNat_natCast, UInt64.ofNat_toNat]

theorem signed64_inj {v w : UInt64} : signed64 v = signed64 w ↔ v = w := by
  refine ⟨fun h => ?_, congrArg signed64⟩
  have hbit : signBit = 9223372036854775808 := rfl
  have hv := v.toNat_lt
  have hw := w.toNat_lt
  refine UInt64.toNat_inj.1 ?_
  unfold signed64 at h
  split at h <;> split at h <;> omega

end StockLedger
