import StockLedger.Time.Timestamp

/-!
# A clock that is moved by hand

* `Clock` : the instant it shows, and whether it has jammed;
* `Clock.startAt`, `Clock.set` : put it to an instant, cut to whole microseconds;
* `Clock.advance?` : move it by a span, which is not cut.

A clock that is pushed out of the range of instants jams: it keeps showing the same instant and
ignores every later move.
-/

namespace StockLedger

/-- What the clock shows, and whether it still moves. -/
structure Clock where
  now : Timestamp
  jammed : Bool := false
deriving DecidableEq, Repr

namespace Clock

/-- A clock that shows the given instant. -/
def startAt (t : Timestamp) : Clock :=
  { now := t.truncateMicros }

/-- Puts the clock to another instant. -/
def set (c : Clock) (t : Timestamp) : Clock :=
  if c.jammed then c else { c with now := t.truncateMicros }

/-- Moves the clock; `none` if that leaves the range of instants. -/
def advance? (c : Clock) (d : Span) : Option Clock :=
  if c.jammed then some c else (c.now.add? d).map fun t => { c with now := t }

/-- The clock after a move that left the range of instants. -/
def jam (c : Clock) : Clock :=
  { c with jammed := true }

end Clock
end StockLedger
