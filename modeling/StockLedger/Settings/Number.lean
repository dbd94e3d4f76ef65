import StockLedger.Text.Blank
import StockLedger.Text.Decimal

/-!
# Numbers in settings

A number is an optional plus sign and decimal digits that denote at most `maxWord`, with blanks
around them.

* `SettingNumber.Fault` : why a text is no number, with its wording;
* `SettingNumber.ofChars` : the number that a text denotes.

Of a bad character and a number that is too large, the one that shows first from the left is
reported.
-/

namespace StockLedger
namespace SettingNumber

/-- The largest number of 64 bits without a sign. -/
def maxWord : Nat := 18446744073709551615

/-- Why a text is no number. -/
inductive Fault
  | invalidDigit
  | tooLarge
deriving DecidableEq, Repr

/-- The wording of a fault. -/
def Fault.message : Fault → String
  | .invalidDigit => "invalid digit found in string"
  | .tooLarge => "number too large to fit in target type"

/-- The number that digits denote, after others that denote `acc`. -/
def readFrom (acc : Nat) : List Char → Except Fault Nat
  | [] => .ok acc
  | c :: cs =>
      if maxWord < acc * 10 then .error (if c.isDigit then .tooLarge else .invalidDigit)
      else if c.isDigit then
        let n := acc * 10 + (c.toNat - 48)
        if maxWord < n then .error .tooLarge else readFrom n cs
      else .error .invalidDigit

/-- The number that a text without blanks around it denotes. -/
def ofTrimmed : List Char → Except Fault Nat
  | [] => .error .invalidDigit
  | ['+'] => .error .invalidDigit
  | '+' :: cs => readFrom 0 cs
  | cs => readFrom 0 cs

/-- The number that a text denotes. -/
def ofChars (cs : List Char) : Except Fault Nat :=
  ofTrimmed (trimBlanks cs)

end SettingNumber
end StockLedger
