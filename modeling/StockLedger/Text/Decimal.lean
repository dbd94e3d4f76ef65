/-!
# Decimal numerals

How whole numbers are written and read in base ten.

* `Decimal.digits` : the digits of a natural number, without a leading zero;
* `Decimal.int` : the same with a minus sign in front of a negative number;
* `Decimal.padded` : at least so many digits, filled with zeros on the left;
* `Decimal.value` : the number that a list of digits denotes.
-/

namespace StockLedger
namespace Decimal

/-! ## Writing -/

/-- The digits of `n` in base ten. -/
def digits (n : Nat) : List Char :=
  Nat.toDigits 10 n

/-- The numeral of a natural number. -/
def nat (n : Nat) : String :=
  String.ofList (digits n)

/-- The characters of the numeral of an integer. -/
def intChars : Int → List Char
  | .ofNat n => digits n
  | .negSucc n => '-' :: digits (n + 1)

/-- The numeral of an integer; zero has no sign. -/
def int (n : Int) : String :=
  String.ofList (intChars n)

/-- The digits of `n`, filled on the left to `width` of them. -/
def padded (width n : Nat) : List Char :=
  List.replicate (width - (digits n).length) '0' ++ digits n

/-! ## Reading -/

/-- The number that a list of digits denotes. -/
def value (cs : List Char) : Nat :=
  Nat.ofDigitChars 10 cs 0

/-- The longest run of digits in front of a text, of at most `most`, and what follows it. -/
def span : Nat → List Char → List Char × List Char
  | 0, cs => ([], cs)
  | _ + 1, [] => ([], [])
  | most + 1, c :: cs =>
      if c.isDigit then
        let (ds, rest) := span most cs
        (c :: ds, rest)
      else
        ([], c :: cs)

/-- Writing a number and reading it gives the number back. -/
theorem value_digits (n : Nat) : value (digits n) = n := by
  simp [value, digits]

/-- A numeral is made of digits only. -/
theorem isDigit_of_mem_digits {c : Char} {n : Nat} (h : c ∈ digits n) : c.isDigit = true :=
  Nat.isDigit_of_mem_toDigits (by decide) (by decide) h

end Decimal
end StockLedger
