import StockLedger.Text.Decimal

/-!
# Numerals

* `KeyValue.natural?` : the number that a numeral without a minus sign denotes;
* `KeyValue.numeral?` : the same with a sign of either kind;
* `KeyValue.place?`, `KeyValue.word?` : the same for numbers of 64 bits, of either kind.
-/

namespace StockLedger
namespace KeyValue

/-- The number that digits denote, if there is a digit and nothing but digits. -/
def digits? (cs : List Char) : Option Nat :=
  if cs ≠ [] ∧ cs.all Char.isDigit then some (Decimal.value cs) else none

/-- The number that digits denote, perhaps after a plus sign. -/
def natural? : List Char → Option Nat
  | '+' :: cs => digits? cs
  | cs => digits? cs

/-- The number that a numeral with or without a sign denotes. -/
def numeral? : List Char → Option Int
  | '-' :: cs => (digits? cs).map fun n => -(n : Int)
  | cs => (natural? cs).map Int.ofNat

/-- The number of a numeral without a minus sign, if it has 64 bits; `-0` is none. -/
def place? (cs : List Char) : Option UInt64 :=
  ((natural? cs).filter fun n => n < UInt64.size).map UInt64.ofNat

/-- The number of a numeral, if it has 64 bits with a sign. -/
def word? (cs : List Char) : Option Int :=
  (numeral? cs).filter fun n => -9223372036854775808 ≤ n && n ≤ 9223372036854775807

end KeyValue
end StockLedger
