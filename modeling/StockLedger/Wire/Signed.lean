/-!
# Words read with a sign

* `signBit` : the weight of the highest bit;
* `signed64` : the 64 bits of a word, read as a number with a sign.
-/

namespace StockLedger

/-- The weight of the highest of 64 bits. -/
def signBit : Nat := 0x8000000000000000

/-- The 64 bits of a word read as a number with a sign: the upper half of the words is negative. -/
def signed64 (w : UInt64) : Int :=
  if w.toNat < signBit then w.toNat else (w.toNat : Int) - 2 * signBit

/-- Words without the highest bit keep their value. -/
theorem signed64_of_lt {w : UInt64} (h : w.toNat < signBit) : signed64 w = w.toNat :=
  if_pos h

end StockLedger
