import StockLedger.Json.Token

/-!
# Reading JSON

* `Json.ofTokens?` : the value that a list of tokens spells;
* `Json.ofChars?`, `Json.ofString?` : the value that a text spells, with nothing after it.
-/

namespace StockLedger
namespace Json

mutual

/-- A value and the tokens after it, with fuel for the tokens. -/
def readValue : Nat → List Token → Option (Json × List Token)
  | 0, _ => none
  | fuel + 1, ts =>
      match ts with
      | .null :: rest => some (.null, rest)
      | .bool b :: rest => some (.bool b, rest)
      | .integer n :: rest => some (.integer n, rest)
      | .decimal s :: rest => some (.decimal s, rest)
      | .text t :: rest => some (.text t, rest)
      | .openBracket :: .closeBracket :: rest => some (.array [], rest)
      | .openBracket :: rest => (readItems fuel rest).map fun (xs, rest) => (.array xs, rest)
      | .openBrace :: .closeBrace :: rest => some (.object [], rest)
      | .openBrace :: rest => (readFields fuel rest).map fun (fs, rest) => (.object fs, rest)
      | _ => none

/-- At least one item and the closing bracket. -/
def readItems : Nat → List Token → Option (List Json × List Token)
  | 0, _ => none
  | fuel + 1, ts =>
      match readValue fuel ts with
      | some (x, .closeBracket :: rest) => some ([x], rest)
      | some (x, .comma :: rest) => (readItems fuel rest).map fun (xs, rest) => (x :: xs, rest)
      | _ => none

/-- At least one field and the closing brace. -/
def readFields : Nat → List Token → Option (List (Text × Json) × List Token)
  | 0, _ => none
  | fuel + 1, ts =>
      match ts with
      | .text name :: .colon :: ts =>
          match readValue fuel ts with
          | some (x, .closeBrace :: rest) => some ([(name, x)], rest)
          | some (x, .comma :: rest) =>
              (readFields fuel rest).map fun (fs, rest) => ((name, x) :: fs, rest)
          | _ => none
      | _ => none

end

/-- The value that the tokens spell, all of them. -/
def ofTokens? (ts : List Token) : Option Json :=
  match readValue (ts.length + 1) ts with
  | some (j, []) => some j
  | _ => none

/-- The value that a text spells. -/
def ofChars? (cs : List Char) : Option Json :=
  (tokens? cs).bind ofTokens?

/-- The value that a text spells. -/
def ofString? (s : String) : Option Json :=
  ofChars? s.toList

end Json
end StockLedger
