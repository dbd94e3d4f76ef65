import StockLedger.Text.Hex

/-!
# Percent signs

A text stands for bytes: a percent sign with two hexadecimal digits for the byte of that value,
every other character for itself.

* `Percent.decode` : the bytes of a text;
* `Percent.isText` : are the bytes of a text a text again;
* `Percent.pairs` : the names and values of a query.
-/

namespace StockLedger
namespace Percent

/-- The byte of two hexadecimal digits. -/
def byte? (a b : Char) : Option UInt8 := do
  let a ← hexValue? a
  let b ← hexValue? b
  some (.ofNat (a * 16 + b))

/-- The bytes that a text stands for. -/
def decode : List Char → List UInt8
  | [] => []
  | '%' :: a :: b :: cs =>
      match byte? a b with
      | some x => x :: decode cs
      | none => String.utf8EncodeChar '%' ++ decode (a :: b :: cs)
  | c :: cs => String.utf8EncodeChar c ++ decode cs

/-- Do the bytes of a text make a text again? -/
def isText (cs : List Char) : Bool :=
  (decode cs).toByteArray.validateUTF8

/-- The bytes of a name or value in a query, where a plus sign stands for a space. -/
def decodeField (cs : List Char) : List UInt8 :=
  decode (cs.map fun c => if c = '+' then ' ' else c)

/-- The names and values of a query, in order. -/
def pairs (query : List Char) : List (List UInt8 × List UInt8) :=
  ((query.splitOn '&').filter fun field => !field.isEmpty).map fun field =>
    let (name, value) := field.span (· != '=')
    (decodeField name, decodeField (value.drop 1))

end Percent
end StockLedger
