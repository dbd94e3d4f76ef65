import StockLedger.Json.Basic
import StockLedger.Text.Decimal

/-!
# Writing JSON

Values are written without white space, fields in their order. In strings the quote, the backslash
and the control characters are escaped and nothing else is.

* `Json.escape` : how one character stands in a string;
* `Json.chars`, `Json.print` : a value as text.
-/

namespace StockLedger
namespace Json

/-- How one character stands in a string. -/
def escape (c : Char) : List Char :=
  if c = '"' then ['\\', '"']
  else if c = '\\' then ['\\', '\\']
  else if c = '\x08' then ['\\', 'b']
  else if c = '\x0c' then ['\\', 'f']
  else if c = '\n' then ['\\', 'n']
  else if c = '\r' then ['\\', 'r']
  else if c = '\t' then ['\\', 't']
  else if c.toNat < 32 then
    ['\\', 'u', '0', '0', Nat.digitChar (c.toNat / 16), Nat.digitChar (c.toNat % 16)]
  else [c]

/-- The characters of a string between its quotes. -/
def Text.inner : Text → List Char
  | .proper s => s.toList.flatMap escape
  | .garbled raw => raw.toList

/-- A string in quotes. -/
def Text.chars (t : Text) : List Char :=
  '"' :: t.inner ++ ['"']

mutual

/-- The text of a value. -/
def chars : Json → List Char
  | .null => "null".toList
  | .bool b => if b then "true".toList else "false".toList
  | .integer n => Decimal.intChars n
  | .decimal s => s.toList
  | .text t => t.chars
  | .array xs => '[' :: itemsChars xs ++ [']']
  | .object fs => '\x7b' :: fieldsChars fs ++ ['\x7d']

/-- Items, with commas between them. -/
def itemsChars : List Json → List Char
  | [] => []
  | [x] => x.chars
  | x :: y :: rest => x.chars ++ ',' :: itemsChars (y :: rest)

/-- Fields, with commas between them. -/
def fieldsChars : List (Text × Json) → List Char
  | [] => []
  | [f] => fieldChars f
  | f :: g :: rest => fieldChars f ++ ',' :: fieldsChars (g :: rest)

/-- A name, a colon and a value. -/
def fieldChars : Text × Json → List Char
  | (name, x) => name.chars ++ ':' :: x.chars

end

/-- The text of a value. -/
def print (j : Json) : String :=
  String.ofList j.chars

end Json
end StockLedger
