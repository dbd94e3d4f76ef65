import StockLedger.Json.Basic

/-!
# Shapes of JSON values

How records, words and numbers of the ledger lie in JSON values.

* `Json.record?` : the fields of a record, from an object or from an array of all of them;
* `Json.word?` : a word, as a string or as the only name in an object;
* `Json.integerIn?` : a whole number of a given range.

An object may have fields that the record does not know, but none of the known ones twice.
-/

namespace StockLedger
namespace Json

/-- The values of the fields with a given name. -/
def valuesOf (name : String) (fields : List (Text × Json)) : List Json :=
  fields.filterMap fun (k, v) => if k = .proper name then some v else none

/-- The only value of a field; `absent` stands in for a missing one. -/
def single? (absent : Option Json) : List Json → Option Json
  | [v] => some v
  | [] => absent
  | _ => none

/--
The values of a record, one for each name in order. A name may come with a value that stands in
for a missing field; in an array such fields may be missing at the end.
-/
def record? (names : List (String × Option Json)) : Json → Option (List Json)
  | .object fields =>
      if fields.all fun (k, _) => k.string?.isSome then
        names.mapM fun (name, absent) => single? absent (valuesOf name fields)
      else
        none
  | .array items =>
      if items.length ≤ names.length then
        ((names.drop items.length).mapM Prod.snd).map (items ++ ·)
      else
        none
  | _ => none

/-- A record of which every field is needed. -/
def recordOf? (names : List String) (j : Json) : Option (List Json) :=
  record? (names.map fun n => (n, none)) j

/-- A word: a string, or an object with the word as its only name and nothing under it. -/
def word? : Json → Option String
  | .text t => t.string?
  | .object [(t, .null)] => t.string?
  | _ => none

/-- A whole number of a range. -/
def integerIn? (least most : Int) : Json → Option Int
  | .integer n => if least ≤ n ∧ n ≤ most then some n else none
  | _ => none

/-- A whole number that fits 64 bits with a sign. -/
def int64? : Json → Option Int :=
  integerIn? (-9223372036854775808) 9223372036854775807

/-- A string or nothing. -/
def optionalString? : Json → Option (Option String)
  | .null => some none
  | j => j.string?.map some

end Json
end StockLedger
