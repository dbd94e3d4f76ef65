/-!
# Lengths of time

A span is a signed whole number of nanoseconds.

* `Span.ofMicros`, `Span.ofMillis`, `Span.ofSeconds` : spans from coarser units;
* `Span.millis` : whole milliseconds, cut towards zero;
* `Span.maxSeconds` : the longest span that a setting may ask for.
-/

namespace StockLedger

/-- A signed length of time. -/
structure Span where
  nanos : Int
deriving DecidableEq, Repr

namespace Span

/-- Nanoseconds in a second. -/
def perSecond : Nat := 1000000000

def ofMicros (n : Int) : Span := ⟨n * 1000⟩

def ofMillis (n : Int) : Span := ⟨n * 1000000⟩

def ofSeconds (n : Int) : Span := ⟨n * perSecond⟩

/-- The largest count of whole seconds whose milliseconds still fit a signed 64-bit number. -/
def maxSeconds : Nat := 9223372036854775

/-- A span of whole seconds, if it is no longer than the longest one. -/
def ofSeconds? (n : Int) : Option Span :=
  if n.natAbs ≤ maxSeconds then some (ofSeconds n) else none

/-- Whole milliseconds, cut towards zero. -/
def millis (d : Span) : Int :=
  d.nanos.tdiv 1000000

/-- Whole seconds, cut towards zero. -/
def seconds (d : Span) : Int :=
  d.nanos.tdiv perSecond

/-- Longer than nothing. -/
def Positive (d : Span) : Prop :=
  0 < d.nanos

instance (d : Span) : Decidable d.Positive := by
  unfold Positive; infer_instance

end Span
end StockLedger
