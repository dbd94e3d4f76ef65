/-!
# Universally unique identifiers

A UUID is a number of 128 bits. It is written as 32 hexadecimal digits in groups of 8, 4, 4, 4 and
12, joined by hyphens.

* `Uuid` : the number;
* `Uuid.hexDigits` : so many hexadecimal digits of a number, the highest first;
* `Uuid.hyphenate` : 32 digits in their groups;
* `Uuid.text` : the written form, in lower case.
-/

namespace StockLedger

/-- How many numbers of 128 bits there are. -/
def Uuid.size : Nat := 0x100000000000000000000000000000000

/-- A number of 128 bits. -/
structure Uuid where
  value : Nat
  value_lt : value < Uuid.size := by decide
deriving DecidableEq, Repr

namespace Uuid

/-- The UUID with the low 128 bits of a number. -/
def ofNat (n : Nat) : Uuid :=
  ⟨n % size, Nat.mod_lt _ (by decide)⟩

instance : LT Uuid := ⟨fun a b => a.value < b.value⟩

instance (a b : Uuid) : Decidable (a < b) :=
  inferInstanceAs (Decidable (a.value < b.value))

/-- The comparison of the sixteen bytes, the highest first, which is that of the numbers. -/
def compare (a b : Uuid) : Ordering :=
  Ord.compare a.value b.value

/-! ## Writing -/

/-- One hexadecimal digit, in lower case. -/
def hexDigit (n : Nat) : Char :=
  Nat.digitChar (n % 16)

/-- The lowest `count` hexadecimal digits of a number, the highest of them first. -/
def hexDigits : Nat → Nat → List Char
  | 0, _ => []
  | count + 1, n => hexDigits count (n / 16) ++ [hexDigit n]

/-- Puts hyphens after the first 8, 12, 16 and 20 characters. -/
def hyphenate (cs : List Char) : List Char :=
  cs.take 8 ++ '-' :: (cs.drop 8).take 4 ++ '-' :: (cs.drop 12).take 4 ++
    '-' :: (cs.drop 16).take 4 ++ '-' :: cs.drop 20

/-- The characters of the written form. -/
def chars (u : Uuid) : List Char :=
  hyphenate (hexDigits 32 u.value)

/-- The written form. -/
def text (u : Uuid) : String :=
  String.ofList u.chars

/-- The weight of the thirteenth hexadecimal digit. -/
def versionUnit : Nat := 0x10000000000000000000

/-- The version number, the thirteenth digit. -/
def version (u : Uuid) : Nat :=
  u.value / versionUnit % 16

end Uuid
end StockLedger
