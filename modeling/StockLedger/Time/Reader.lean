import StockLedger.Text.Blank
import StockLedger.Text.Decimal
import StockLedger.Time.Timestamp

/-!
# Reading instants

The accepted form is that of RFC 3339, relaxed: blanks may stand before every number, before the
separators of date and time and around the zone; every field but the year has one or two digits,
the year up to four or, after a sign, any number; `T`, `t` or one space divides date from time;
digits of the fraction past the ninth are dropped; the zone is `UTC`, `Z` or an offset under a day.

* `Timestamp.Reading` : a reader of one part, which returns the part and what follows it;
* `Timestamp.ofChars?`, `Timestamp.ofString?` : the instant that a text denotes.
-/

namespace StockLedger
namespace Timestamp

/-- A reader takes a text apart: what it read and what follows. -/
abbrev Reading (α : Type) := List Char → Option (α × List Char)

/-! ## Fields -/

/-- A number of one to `most` digits. -/
def readDigits (most : Nat) : Reading Nat := fun cs =>
  match Decimal.span most cs with
  | ([], _) => none
  | (ds, rest) => some (Decimal.value ds, rest)

/-- A number of one or two digits, blanks allowed in front. -/
def readField : Reading Nat := fun cs =>
  readDigits 2 (skipBlanks cs)

/-- A year: up to four digits, or a sign and any number of digits. -/
def readYear : Reading Int := fun cs =>
  match skipBlanks cs with
  | '-' :: rest => (readDigits rest.length rest).map fun (n, r) => (-(n : Int), r)
  | '+' :: rest => (readDigits rest.length rest).map fun (n, r) => ((n : Int), r)
  | cs => (readDigits 4 cs).map fun (n, r) => ((n : Int), r)

/-- A separator, blanks allowed in front. -/
def readMark (mark : Char) : Reading Unit := fun cs =>
  match skipBlanks cs with
  | [] => none
  | c :: rest => if c = mark then some ((), rest) else none

/-- One character between date and time. -/
def readDivider : Reading Unit
  | 'T' :: rest | 't' :: rest | ' ' :: rest => some ((), rest)
  | _ => none

/-- A point and at least one digit; nine digits count. No point means no fraction. -/
def readFraction : Reading Nat
  | '.' :: cs =>
      match Decimal.span 9 cs with
      | ([], _) => none
      | (ds, rest) =>
          some (Decimal.value (ds ++ List.replicate (9 - ds.length) '0'),
            rest.dropWhile Char.isDigit)
  | cs => some (0, cs)

/-! ## Zones -/

/-- Exactly two digits. -/
def readTwo : Reading Nat
  | a :: b :: rest =>
      if a.isDigit && b.isDigit then some (Decimal.value [a, b], rest) else none
  | _ => none

/-- The sign of an offset, a minus sign proper included. -/
def readSign : Reading Int
  | '+' :: rest => some (1, rest)
  | '-' :: rest | '\u2212' :: rest => some (-1, rest)
  | _ => none

/-- The minutes of an offset after any colons and blanks; they may not be missing. -/
def readOffsetMinutes : Reading Nat := fun cs =>
  match readTwo (cs.dropWhile fun c => c = ':' || isBlank c) with
  | some (m, rest) => if m < 60 then some (m, rest) else none
  | none => none

/-- Seconds that local time is ahead of UTC. -/
def readOffset : Reading Int := fun cs => do
  let (sign, cs) ← readSign cs
  let (hours, cs) ← readTwo cs
  let (minutes, cs) ← readOffsetMinutes cs
  if hours < 24 then
    some (sign * ((hours * 60 + minutes) * 60 : Nat), cs)
  else
    none

/-- A zone: `UTC` in any case, `Z` in any case, or an offset. -/
def readZone : Reading Int := fun cs =>
  match cs with
  | u :: t :: c :: rest =>
      if u.toUpper = 'U' ∧ t.toUpper = 'T' ∧ c.toUpper = 'C' then some (0, rest)
      else if u.toUpper = 'Z' then some (0, t :: c :: rest)
      else readOffset cs
  | z :: rest => if z.toUpper = 'Z' then some (0, rest) else readOffset cs
  | [] => none

/-! ## Instants -/

/-- The fields of a text that denotes an instant. -/
structure Fields where
  date : CalendarDate
  hour : Nat
  minute : Nat
  second : Nat
  nanos : Nat
  offset : Int
deriving DecidableEq, Repr

/-- All fields of a text, and nothing after them but blanks. -/
def readFields (cs : List Char) : Option Fields := do
  let (year, cs) ← readYear cs
  let ((), cs) ← readMark '-' cs
  let (month, cs) ← readField cs
  let ((), cs) ← readMark '-' cs
  let (day, cs) ← readField cs
  let ((), cs) ← readDivider cs
  let (hour, cs) ← readField cs
  let ((), cs) ← readMark ':' cs
  let (minute, cs) ← readField cs
  let ((), cs) ← readMark ':' cs
  let (second, cs) ← readField cs
  let (nanos, cs) ← readFraction cs
  let (offset, cs) ← readZone (skipBlanks cs)
  if skipBlanks cs = [] then
    some ⟨⟨year, month, day⟩, hour, minute, second, nanos, offset⟩
  else
    none

/-- The years that a date may have. -/
def yearInRange (year : Int) : Bool :=
  -262143 ≤ year && year ≤ 262142

/-- The instant of the fields; second 60 is the leap second that follows second 59. -/
def ofFields? (f : Fields) : Option Timestamp :=
  if f.date.Valid ∧ yearInRange f.date.year ∧ f.hour < 24 ∧ f.minute < 60 ∧ f.second ≤ 60 then
    let leap := f.second / 60
    let secondOfDay := (f.hour * 60 + f.minute) * 60 + (f.second - leap)
    ofParts? (f.date.dayNumber * 86400 + secondOfDay - f.offset)
      (f.nanos + leap * Span.perSecond)
  else
    none

/-- The instant that a text denotes. -/
def ofChars? (cs : List Char) : Option Timestamp :=
  (readFields cs).bind ofFields?

/-- The instant that a text denotes. -/
def ofString? (s : String) : Option Timestamp :=
  ofChars? s.toList

end Timestamp
end StockLedger
