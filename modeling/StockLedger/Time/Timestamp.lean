import StockLedger.Time.Calendar
import StockLedger.Time.Span

/-!
# Instants

An instant is a second since 1970 (UTC) and a count of nanoseconds inside it. The count may run
past one second only in the last second of a minute: that is how a leap second is kept.

* `Timestamp` : an instant of the years -262143 to 262142;
* `Timestamp.ofNanos?` : the instant so many nanoseconds after 1970;
* `Timestamp.add?` : an instant moved by a span, if it stays in range;
* `Timestamp.truncateMicros` : the instant with whole microseconds at or before a given one.

Instants are ordered by second and then by nanosecond.
-/

namespace StockLedger

/-- An instant, with its range and the rule for leap seconds. -/
structure Timestamp where
  seconds : Int
  nanos : Nat
  first_le : -8334601228800 ≤ seconds := by decide
  le_last : seconds ≤ 8210266876799 := by decide
  nanos_lt : nanos < 2000000000 := by decide
  leap : 1000000000 ≤ nanos → seconds % 60 = 59 := by decide
deriving DecidableEq, Repr

namespace Timestamp

/-- The second and the nanosecond of an instant, if there is such an instant. -/
def ofParts? (seconds : Int) (nanos : Nat) : Option Timestamp :=
  if h : -8334601228800 ≤ seconds ∧ seconds ≤ 8210266876799 ∧ nanos < 2000000000 ∧
      (1000000000 ≤ nanos → seconds % 60 = 59) then
    some ⟨seconds, nanos, h.1, h.2.1, h.2.2.1, h.2.2.2⟩
  else
    none

/-- The instant so many nanoseconds after the start of 1970, leap seconds not counted. -/
def ofNanos? (n : Int) : Option Timestamp :=
  ofParts? (n / Span.perSecond) (n % Span.perSecond).toNat

/-- Nanoseconds since the start of 1970; inside a leap second they run past the full second. -/
def sinceEpoch (t : Timestamp) : Int :=
  t.seconds * Span.perSecond + t.nanos

/-- The start of 1970. -/
def epoch : Timestamp :=
  { seconds := 0, nanos := 0 }

/-! ## Order -/

/-- The order by second, then by nanosecond. -/
def before (a b : Timestamp) : Bool :=
  a.seconds < b.seconds || (a.seconds == b.seconds && a.nanos < b.nanos)

instance : LT Timestamp := ⟨fun a b => a.before b = true⟩

instance (a b : Timestamp) : Decidable (a < b) :=
  inferInstanceAs (Decidable (a.before b = true))

instance : LE Timestamp := ⟨fun a b => ¬ b < a⟩

instance (a b : Timestamp) : Decidable (a ≤ b) :=
  inferInstanceAs (Decidable (¬ b < a))

/-! ## Arithmetic -/

/--
The instant moved by a span.

A move that stays inside a leap second only changes its nanoseconds; a move out of it forwards
starts from the same place in the second that carries it, a move backwards from the second after.
-/
def add? (t : Timestamp) (d : Span) : Option Timestamp :=
  if t.nanos < Span.perSecond then
    ofNanos? (t.sinceEpoch + d.nanos)
  else if Span.perSecond ≤ d.nanos ∨ 2 * Span.perSecond ≤ t.nanos + d.nanos then
    ofNanos? (t.sinceEpoch - Span.perSecond + d.nanos)
  else if d.nanos ≤ -Span.perSecond then
    ofNanos? (t.sinceEpoch + d.nanos)
  else
    ofParts? t.seconds (t.nanos + d.nanos).toNat

/-- The same instant without what is finer than a microsecond. -/
def truncateMicros (t : Timestamp) : Timestamp :=
  { t with
    nanos := t.nanos - t.nanos % 1000
    nanos_lt := Nat.lt_of_le_of_lt (Nat.sub_le ..) t.nanos_lt
    leap := fun h => t.leap (Nat.le_trans h (Nat.sub_le ..)) }

end Timestamp
end StockLedger
