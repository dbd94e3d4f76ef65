import StockLedger.Program.Basic

/-!
# What sweeps add up to

* `SweepStats` : counters over all sweeps, of 64 bits each;
* `SweepStats.record` : the counters after a sweep that ended with a tally;
* `SweepStats.skip` : the counters after a skipped one.
-/

namespace StockLedger

/-- Counters over all sweeps. -/
structure SweepStats where
  ticks : UInt64 := 0
  skipped : UInt64 := 0
  released : UInt64 := 0
  failed : UInt64 := 0
  deferred : UInt64 := 0
deriving DecidableEq, Repr

namespace SweepStats

/-- Adds a finished sweep. -/
def record (s : SweepStats) (t : SweepTally) : SweepStats :=
  { s with
    ticks := s.ticks + 1
    released := s.released + .ofNat t.released
    failed := s.failed + .ofNat t.failed
    deferred := s.deferred + .ofNat t.deferred }

/-- Adds a skipped sweep. -/
def skip (s : SweepStats) : SweepStats :=
  { s with skipped := s.skipped + 1 }

end SweepStats
end StockLedger
