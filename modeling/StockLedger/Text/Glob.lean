import StockLedger.Text.Bytes

/-!
# Patterns with stars

A pattern is a text in which every `*` stands for any text, the empty one included, and every
other character for itself.

* `Glob.pieces` : the parts of a pattern between its stars;
* `Glob.findAfter?` : what follows the first occurrence of a piece;
* `Glob.isMatch` : the matcher, which places each piece as far to the left as it can;
* `Glob.scan?` : the matcher on bytes, which cuts its text at places it has counted.
-/

namespace StockLedger
namespace Glob

/-- The parts of a pattern between its stars; there is one more of them than there are stars. -/
def pieces : List Char → List (List Char)
  | [] => [[]]
  | c :: cs =>
      match c, pieces cs with
      | '*', ps => [] :: ps
      | c, p :: ps => (c :: p) :: ps
      | c, [] => [[c]]

/-- `dropFront? p text` is what follows `p` when the text begins with it. -/
def dropFront? : List Char → List Char → Option (List Char)
  | [], text => some text
  | _ :: _, [] => none
  | p :: ps, c :: cs => if p = c then dropFront? ps cs else none

/-- What follows the first occurrence of a piece in a text. -/
def findAfter? (piece : List Char) : List Char → Option (List Char)
  | [] => dropFront? piece []
  | c :: cs =>
      match dropFront? piece (c :: cs) with
      | some rest => some rest
      | none => findAfter? piece cs

/-- Places the pieces that come after a star: each at its first occurrence, the last at the end. -/
def placeRest : List (List Char) → List Char → Bool
  | [], text => text.isEmpty
  | [last], text => last.isSuffixOf text
  | piece :: more, text =>
      match findAfter? piece text with
      | some rest => placeRest more rest
      | none => false

/-- Does the text fit the pattern? -/
def isMatch (pattern text : List Char) : Bool :=
  match pieces pattern with
  | [] => false
  | [whole] => whole == text
  | first :: more =>
      match dropFront? first text with
      | some rest => placeRest more rest
      | none => false

/-! ## On bytes -/

/-- The byte of a star. -/
def starByte : UInt8 := 42

/-- The parts of a pattern between its stars. -/
def byteParts : List UInt8 → List (List UInt8)
  | [] => [[]]
  | b :: bs =>
      if b = starByte then [] :: byteParts bs
      else
        match byteParts bs with
        | p :: ps => (b :: p) :: ps
        | [] => [[b]]

/-- Places the parts after a star; nothing when a cut falls inside a character. -/
def scanRest? : List (List UInt8) → List UInt8 → Option Bool
  | [], text => some text.isEmpty
  | [last], text => some (last.isSuffixOf text)
  | part :: more, text =>
      match Text.find? part text with
      | some place => (Text.cutAt? (place + part.length) text).bind (scanRest? more)
      | none => some false

/-- Does the text fit the pattern? Nothing when a cut falls inside a character. -/
def scan? (pattern text : List UInt8) : Option Bool :=
  match byteParts pattern with
  | [] => some text.isEmpty
  | first :: more =>
      if first.isPrefixOf text then (Text.cutAt? first.length text).bind (scanRest? more)
      else some false

end Glob
end StockLedger
