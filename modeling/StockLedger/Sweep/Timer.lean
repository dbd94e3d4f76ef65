import StockLedger.Time.Span

/-!
# The timer of sweeps

A timer is due at multiples of its period, the first time at once. It is looked at only now and
then. A look that comes at most five milliseconds late moves the deadline by one period; one that
comes later skips to the next multiple of the period, so that missed deadlines are not made up for.

* `Timer` : the period and the next deadline, in nanoseconds since the timer was started;
* `Timer.due`, `Timer.fire` : is the deadline reached, and the timer after that.
-/

namespace StockLedger

/-- A period and the next deadline, counted from the start of the timer. -/
structure Timer where
  period : Nat
  deadline : Nat := 0
  period_pos : 0 < period
deriving Repr

namespace Timer

/-- Nanoseconds in a millisecond. -/
def perMilli : Nat := 1000000

/-- A timer that is due at once. A period is at least one millisecond. -/
def start (interval : Span) : Timer :=
  { period := max interval.nanos.toNat perMilli
    period_pos := Nat.lt_of_lt_of_le (by decide) (Nat.le_max_right ..) }

def due (t : Timer) (now : Nat) : Bool :=
  t.deadline ≤ now

/-- How late a look may be before deadlines are skipped. -/
def tolerance : Nat := 5 * perMilli

/-- The timer after it was found due. -/
def fire (t : Timer) (now : Nat) : Timer :=
  { t with
    deadline :=
      if t.deadline + tolerance < now then
        now + t.period - (now - t.deadline) % t.period
      else
        t.deadline + t.period }

/-- Firing moves the deadline on. -/
theorem deadline_lt_fire {t : Timer} {now : Nat} (h : t.due now = true) :
    t.deadline < (t.fire now).deadline := by
  have hp := t.period_pos
  have hm := Nat.mod_lt (now - t.deadline) hp
  have hd : t.deadline ≤ now := by simpa [due] using h
  simp only [fire]
  split <;> omega

end Timer
end StockLedger
