import StockLedger.Json.Basic
import StockLedger.Text.Decimal
import StockLedger.Text.Hex

/-!
# The tokens of JSON

* `Json.Token` : punctuation, words, numbers and strings;
* `Json.readText` : the inside of a string, up to its closing quote;
* `Json.readNumber` : a number;
* `Json.tokens?` : all tokens of a text.
-/

namespace StockLedger
namespace Json

/-- What a JSON text is made of, white space aside. -/
inductive Token
  | openBrace
  | closeBrace
  | openBracket
  | closeBracket
  | colon
  | comma
  | null
  | bool (b : Bool)
  | integer (n : Int)
  | decimal (numeral : String)
  | text (t : Text)
deriving DecidableEq, Repr

/-! ## Strings -/

/-- One step of a string: a character, or an escaped 16-bit code unit. -/
inductive Piece
  | char (c : Char)
  | unit (code : Nat)
deriving DecidableEq, Repr

/-- The code unit that four hexadecimal digits denote. -/
def unit? (a b c d : Char) : Option Nat := do
  let a ← hexValue? a
  let b ← hexValue? b
  let c ← hexValue? c
  let d ← hexValue? d
  some (((a * 16 + b) * 16 + c) * 16 + d)

/-- The character behind a one-letter escape. -/
def escaped? : Char → Option Char
  | '"' => some '"'
  | '\\' => some '\\'
  | '/' => some '/'
  | 'b' => some '\x08'
  | 'f' => some '\x0c'
  | 'n' => some '\n'
  | 'r' => some '\r'
  | 't' => some '\t'
  | _ => none

/-- The inside of a string and what follows its closing quote; control characters are refused. -/
def readText : List Char → Option (List Piece × List Char)
  | [] => none
  | '"' :: rest => some ([], rest)
  | '\\' :: 'u' :: a :: b :: c :: d :: rest => do
      let code ← unit? a b c d
      let (ps, rest) ← readText rest
      some (.unit code :: ps, rest)
  | '\\' :: e :: rest => do
      let c ← escaped? e
      let (ps, rest) ← readText rest
      some (.char c :: ps, rest)
  | c :: rest =>
      if c.toNat < 32 ∨ c = '\\' then none
      else (readText rest).map fun (ps, rest) => (.char c :: ps, rest)

/-- The first half of a pair of code units. -/
def isHigh (code : Nat) : Bool := 0xD800 ≤ code && code < 0xDC00

/-- The second half of a pair of code units. -/
def isLow (code : Nat) : Bool := 0xDC00 ≤ code && code < 0xE000

/-- The characters that the pieces denote; `none` if a half stands without its other half. -/
def joinPieces : List Piece → Option (List Char)
  | [] => some []
  | .char c :: ps => (joinPieces ps).map (c :: ·)
  | .unit hi :: .unit lo :: ps =>
      if isHigh hi then
        if isLow lo then
          (joinPieces ps).map (Char.ofNat (0x10000 + (hi - 0xD800) * 1024 + (lo - 0xDC00)) :: ·)
        else none
      else if isLow hi then none
      else (joinPieces (.unit lo :: ps)).map (Char.ofNat hi :: ·)
  | .unit code :: ps =>
      if isHigh code ∨ isLow code then none
      else (joinPieces ps).map (Char.ofNat code :: ·)

/-- The string of the pieces that were read from `cs`, with `rest` after its closing quote. -/
def Text.ofPieces (ps : List Piece) (cs rest : List Char) : Text :=
  match joinPieces ps with
  | some s => .proper (String.ofList s)
  | none => .garbled (String.ofList (cs.take (cs.length - rest.length - 1)))

/-! ## Numbers -/

/-- A fraction, if there is a point: the digits read and what follows. -/
def readFraction : List Char → Option (List Char × List Char)
  | '.' :: cs =>
      match cs.span Char.isDigit with
      | ([], _) => none
      | (ds, rest) => some ('.' :: ds, rest)
  | cs => some ([], cs)

/-- An exponent, if there is one: the characters read and what follows. -/
def readExponent : List Char → Option (List Char × List Char)
  | e :: cs =>
      if e = 'e' ∨ e = 'E' then
        let (sign, cs) := match cs with
          | '+' :: r => (['+'], r)
          | '-' :: r => (['-'], r)
          | r => ([], r)
        match cs.span Char.isDigit with
        | ([], _) => none
        | (ds, rest) => some (e :: sign ++ ds, rest)
      else
        some ([], e :: cs)
  | [] => some ([], [])

/-- The digits in front of the point: no zero leads another digit. -/
def readWhole (cs : List Char) : Option (List Char × List Char) :=
  match cs.span Char.isDigit with
  | ([], _) => none
  | ('0' :: _ :: _, _) => none
  | (ds, rest) => some (ds, rest)

/-- A number after its sign. Only plain digits that are not a signed zero make a whole number. -/
def readUnsigned (negative : Bool) (cs : List Char) : Option (Token × List Char) := do
  let (ds, cs) ← readWhole cs
  let (fraction, cs) ← readFraction cs
  let (exponent, cs) ← readExponent cs
  let n := Decimal.value ds
  if fraction = [] ∧ exponent = [] ∧ (negative = false ∨ n ≠ 0) then
    some (.integer (if negative then -(n : Int) else n), cs)
  else
    let sign := if negative then ['-'] else []
    some (.decimal (String.ofList (sign ++ ds ++ fraction ++ exponent)), cs)

/-- A number. -/
def readNumber : List Char → Option (Token × List Char)
  | '-' :: cs => readUnsigned true cs
  | cs => readUnsigned false cs

/-! ## Texts -/

/-- The four blanks that JSON knows. -/
def isSpace (c : Char) : Bool :=
  c = ' ' || c = '\n' || c = '\t' || c = '\r'

/-- The token in front of a text that begins with none of the blanks. -/
def readToken : List Char → Option (Token × List Char)
  | '\x7b' :: cs => some (.openBrace, cs)
  | '\x7d' :: cs => some (.closeBrace, cs)
  | '[' :: cs => some (.openBracket, cs)
  | ']' :: cs => some (.closeBracket, cs)
  | ':' :: cs => some (.colon, cs)
  | ',' :: cs => some (.comma, cs)
  | 'n' :: 'u' :: 'l' :: 'l' :: cs => some (.null, cs)
  | 't' :: 'r' :: 'u' :: 'e' :: cs => some (.bool true, cs)
  | 'f' :: 'a' :: 'l' :: 's' :: 'e' :: cs => some (.bool false, cs)
  | '"' :: cs =>
      (readText cs).map fun (ps, rest) => (.text (.ofPieces ps cs rest), rest)
  | cs => readNumber cs

/-- The tokens of a text, with fuel for as many characters as it has. -/
def tokensWithin : Nat → List Char → Option (List Token)
  | 0, _ => none
  | fuel + 1, cs =>
      match cs with
      | [] => some []
      | c :: rest =>
          if isSpace c then tokensWithin fuel rest
          else do
            let (t, rest) ← readToken (c :: rest)
            let ts ← tokensWithin fuel rest
            some (t :: ts)

/-- The tokens of a text. -/
def tokens? (cs : List Char) : Option (List Token) :=
  tokensWithin (cs.length + 1) cs

end Json
end StockLedger
