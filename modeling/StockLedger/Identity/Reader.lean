import StockLedger.Identity.Uuid
import StockLedger.Text.Decimal
import StockLedger.Text.Hex

/-!
# Reading UUIDs

Four forms are accepted: 32 hexadecimal digits, the hyphenated form, that form in braces, and that
form after `urn:uuid:`. Case never matters.

* `Uuid.Misspelling` : what is wrong with a text that is none of them;
* `Uuid.ofChars?` : the UUID that a text denotes;
* `Uuid.diagnose` : the first thing wrong with a text that denotes none.
-/

namespace StockLedger
namespace Uuid

/-! ## Digits -/

/-- The number that hexadecimal digits denote, `acc` being that of the digits before. -/
def hexNumber? (acc : Nat) : List Char → Option Nat
  | [] => some acc
  | c :: cs => (hexValue? c).bind fun d => hexNumber? (acc * 16 + d) cs

/-- The UUID of exactly 32 digits. -/
def ofDigits? (cs : List Char) : Option Uuid :=
  if cs.length = 32 then (hexNumber? 0 cs).map ofNat else none

/-! ## Forms -/

/-- The groups of the hyphenated form without their hyphens. -/
def ungroup? (cs : List Char) : Option (List Char) :=
  if cs.length = 36 ∧ cs[8]? = some '-' ∧ cs[13]? = some '-' ∧ cs[18]? = some '-' ∧
      cs[23]? = some '-' then
    some (cs.take 8 ++ (cs.drop 9).take 4 ++ (cs.drop 14).take 4 ++ (cs.drop 19).take 4 ++
      cs.drop 24)
  else
    none

/-- The mark of the form that is a uniform resource name. -/
def urnMark : List Char := "urn:uuid:".toList

/-- The text inside braces or after the mark, and how many characters stood in front of it. -/
def unwrap? (cs : List Char) : Option (List Char × Nat) :=
  if cs.head? = some '\x7b' ∧ cs.getLast? = some '\x7d' ∧ 2 ≤ cs.length then
    some ((cs.drop 1).dropLast, 1)
  else if (cs.take urnMark.length).map Char.toLower = urnMark then
    some (cs.drop urnMark.length, urnMark.length)
  else
    none

/-- The UUID that a text denotes. -/
def ofChars? (cs : List Char) : Option Uuid :=
  match ofDigits? cs with
  | some u => some u
  | none => (ungroup? ((unwrap? cs).elim cs Prod.fst)).bind ofDigits?

/-! ## Misspellings -/

/-- What is wrong with a text that denotes no UUID; lengths and places are counted in bytes. -/
inductive Misspelling
  | length (found : Nat)
  | character (c : Char) (place : Nat)
  | groupCount (found : Nat)
  | groupLength (group expected found : Nat)
deriving DecidableEq, Repr

/-- The wording of a misspelling. -/
def Misspelling.message : Misspelling → String
  | .length n => "invalid length: found " ++ Decimal.nat n
  | .character c i =>
      "invalid character: found \x60" ++ String.singleton c ++ "\x60 at " ++ Decimal.nat i
  | .groupCount n => "invalid group count: expected 5, found " ++ Decimal.nat n
  | .groupLength g e n =>
      "invalid group length in group " ++ Decimal.nat g ++ ": expected " ++ Decimal.nat e ++
        ", found " ++ Decimal.nat n

/-- The length of a text in bytes. -/
def byteLength (cs : List Char) : Nat :=
  (String.ofList cs).utf8ByteSize

/-- The first character that is neither a hexadecimal digit nor a hyphen, and its place. -/
def strayCharacter? : Nat → List Char → Option (Char × Nat)
  | _, [] => none
  | place, c :: cs =>
      if c = '-' ∨ (hexValue? c).isSome then strayCharacter? (place + c.utf8Size) cs
      else some (c, place)

/-- The places of the hyphens. -/
def hyphens (cs : List Char) : List Nat :=
  cs.zipIdx.filterMap fun (c, i) => if c = '-' then some i else none

/-- Group number, expected length, start and end of the groups before the last. -/
def groupEnds (hs : List Nat) : List (Nat × Nat × Nat × Nat) :=
  [0, 1, 2, 3].zip ([8, 4, 4, 4].zip ([0, 9, 14, 19].zip hs))

/-- The first thing wrong with groups of digits, by the places of the hyphens between them. -/
def diagnoseGroups (size : Nat) (hs : List Nat) : Misspelling :=
  if hs.length ≠ 4 then .groupCount (hs.length + 1)
  else
    match (groupEnds hs).find? fun (_, len, first, last) => first + len ≠ last with
    | some (g, len, first, last) => .groupLength g len (last - first)
    | none => .groupLength 4 12 (size - 24)

/-- A text of 36 bytes, alone or wrapped: it can only be meant for the hyphenated form. -/
def meantAsGroups? (cs : List Char) : Option (List Char) :=
  if byteLength cs = 36 then some cs
  else ((unwrap? cs).map Prod.fst).filter fun body => byteLength body = 36

/--
The first thing wrong with a text that denotes no UUID. Places in a text that is meant for the
hyphenated form count from the start of that form, all others from the start of the whole text.
-/
def diagnose (cs : List Char) : Misspelling :=
  let size := byteLength cs
  if size = 0 ∨ 45 < size then .length size
  else
    match meantAsGroups? cs with
    | some body =>
        match strayCharacter? 0 body with
        | some (c, i) => .character c i
        | none => diagnoseGroups size (hyphens body)
    | none =>
        let (body, start) := (unwrap? cs).getD (cs, 0)
        match strayCharacter? start body with
        | some (c, i) => .character c i
        | none =>
            let hs := hyphens body
            if hs = [] ∧ start = 0 then .length size else diagnoseGroups size hs

end Uuid
end StockLedger
