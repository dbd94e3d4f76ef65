/-!
# Texts as bytes

A text is kept as the UTF-8 bytes of its characters. A place in it is a number of bytes, and only
some places lie between two characters.

* `Text.bytes` : the bytes of a text;
* `Text.isBoundary` : does a place lie between two characters?
* `Text.cutAt?` : the bytes from a place on, which breaks off inside a character;
* `Text.find?` : the first place where some bytes stand.
-/

namespace StockLedger
namespace Text

/-- The bytes of a text. -/
def bytes (cs : List Char) : List UInt8 :=
  cs.flatMap String.utf8EncodeChar

/-- Does a byte go on with a character that began before it? -/
def isContinuation (b : UInt8) : Bool :=
  128 ≤ b && b < 192

/-- Does a place lie between two characters, or at an end? -/
def isBoundary (place : Nat) (text : List UInt8) : Bool :=
  place == 0 ||
    match text[place]? with
    | some b => !isContinuation b
    | none => place == text.length

/-- The bytes from a place on; nothing when the place lies inside a character or past the end. -/
def cutAt? (place : Nat) (text : List UInt8) : Option (List UInt8) :=
  if isBoundary place text then some (text.drop place) else none

/-- The first place where a piece stands. -/
def find? (piece : List UInt8) : List UInt8 → Option Nat
  | [] => if piece.isEmpty then some 0 else none
  | b :: bs =>
      if piece.isPrefixOf (b :: bs) then some 0 else (find? piece bs).map (· + 1)

end Text
end StockLedger
