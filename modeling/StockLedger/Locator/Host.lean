import StockLedger.Text.Decimal
import StockLedger.Text.Hex

/-!
# Hosts in locators

A host is a name, or a number of 128 bits in brackets. Such a number is written in parts of 16 bits
with colons between them: one to four hexadecimal digits each, the last two parts perhaps as four
decimal numbers with points between them. Two colons may stand once for any missing parts.

* `Host.width?` : how many parts a text has;
* `Host.isNumber` : is a text a number of eight parts, two colons made up for;
* `Host.isValid` : is a text a host.
-/

namespace StockLedger
namespace Host

/-! ## Numbers -/

/-- Is a text one part? -/
def isPart (cs : List Char) : Bool :=
  !cs.isEmpty && cs.length ≤ 4 && cs.all fun c => (hexValue? c).isSome

/-- Is a text a decimal number below 256 without needless zeros? -/
def isOctet : List Char → Bool
  | [] => false
  | '0' :: _ :: _ => false
  | cs => cs.all Char.isDigit && Decimal.value cs ≤ 255

/-- Is a text four decimal numbers with points between them? -/
def isDotted (cs : List Char) : Bool :=
  let octets := cs.splitOn '.'
  octets.length == 4 && octets.all isOctet

/-- How many parts a list of texts makes, the last perhaps with points; `none` if one is bad. -/
def partsWidth? (dotted : Bool) : List (List Char) → Option Nat
  | [] => some 0
  | [last] =>
      if isPart last then some 1 else if dotted && isDotted last then some 2 else none
  | part :: parts => if isPart part then (partsWidth? dotted parts).map (· + 1) else none

/-- How many parts a text without two colons has; `dotted` says whether the last may have points. -/
def width? (dotted : Bool) (cs : List Char) : Option Nat :=
  if cs = [] then some 0 else partsWidth? dotted (cs.splitOn ':')

/-- What stands before the first two colons, and what after them. -/
def splitGap : List Char → List Char × Option (List Char)
  | [] => ([], none)
  | c :: cs =>
      match c, cs with
      | ':', ':' :: rest => ([], some rest)
      | _, _ => let (before, after) := splitGap cs; (c :: before, after)

/-- Is a text a number of eight parts? Two colons stand for at least one part. -/
def isNumber (cs : List Char) : Bool :=
  match splitGap cs with
  | (whole, none) => width? true whole == some 8
  | (before, some after) =>
      match width? false before, width? true after with
      | some m, some n => m + n ≤ 7
      | _, _ => false

/-! ## Names -/

/-- The characters that no name has. -/
def notInNames : List Char :=
  ['\x00', '\t', '\n', '\r', ' ', '#', '/', ':', '<', '>', '?', '@', '[', '\\', ']', '^', '|']

/-- Is a text a host? The empty text is a name. -/
def isValid : List Char → Bool
  | '[' :: cs => cs.getLast? == some ']' && isNumber cs.dropLast
  | cs => cs.all fun c => !notInNames.contains c

/-- A host in front of a text, up to a colon outside of brackets, and what follows it. -/
def span (inBrackets : Bool) : List Char → List Char × List Char
  | [] => ([], [])
  | c :: cs =>
      if c = ':' ∧ !inBrackets then ([], c :: cs)
      else
        let (host, rest) := span (c = '[' || (inBrackets && c != ']')) cs
        (c :: host, rest)

end Host
end StockLedger
