import StockLedger.Text.Decimal
import StockLedger.Time.Timestamp

/-!
# Instants as text

An instant is written `YYYY-MM-DDTHH:MM:SS`, then its fraction, then a mark for UTC. The fraction
has three, six or nine digits, the fewest that are exact, and is left out when it is zero. A year
outside 0 to 9999 has a sign. A leap second is written as second 60.

* `Timestamp.dateTimeChars` : all but the mark;
* `Timestamp.zulu` : with the mark `Z`;
* `Timestamp.numericOffset` : with the mark `+00:00`.
-/

namespace StockLedger
namespace Timestamp

/-- Four digits at least, and a sign outside 0 to 9999. -/
def yearChars (year : Int) : List Char :=
  if 0 ≤ year ∧ year ≤ 9999 then
    Decimal.padded 4 year.toNat
  else
    (if year < 0 then '-' else '+') :: Decimal.padded 4 year.natAbs

/-- The shortest exact fraction of three, six or nine digits; nothing for a full second. -/
def fractionChars (nanos : Nat) : List Char :=
  if nanos = 0 then []
  else if nanos % 1000000 = 0 then '.' :: Decimal.padded 3 (nanos / 1000000)
  else if nanos % 1000 = 0 then '.' :: Decimal.padded 6 (nanos / 1000)
  else '.' :: Decimal.padded 9 nanos

/-- Year, month and day. -/
def dateChars (d : CalendarDate) : List Char :=
  yearChars d.year ++ '-' :: Decimal.padded 2 d.month ++ '-' :: Decimal.padded 2 d.day

/-- Hour, minute, second and fraction; `nanos` past a full second belong to second 60. -/
def timeChars (secondOfDay nanos : Nat) : List Char :=
  let carried := nanos / Span.perSecond
  Decimal.padded 2 (secondOfDay / 3600) ++ ':' :: Decimal.padded 2 (secondOfDay / 60 % 60) ++
    ':' :: Decimal.padded 2 (secondOfDay % 60 + carried) ++ fractionChars (nanos % Span.perSecond)

/-- The date of an instant in UTC. -/
def date (t : Timestamp) : CalendarDate :=
  .ofDayNumber (t.seconds / 86400)

/-- The instant in UTC without a mark for the zone. -/
def dateTimeChars (t : Timestamp) : List Char :=
  dateChars t.date ++ 'T' :: timeChars (t.seconds % 86400).toNat t.nanos

/-- The instant with the mark `Z`. -/
def zulu (t : Timestamp) : String :=
  String.ofList (t.dateTimeChars ++ ['Z'])

/-- The instant with the mark `+00:00`. -/
def numericOffset (t : Timestamp) : String :=
  String.ofList (t.dateTimeChars ++ "+00:00".toList)

end Timestamp
end StockLedger
