import StockLedger.Service.Claim

/-!
# Sweeping expired claims

A sweep looks for claims that are still pending after their expiry and releases them one by one.
Only a failing search makes a sweep fail; a claim that cannot be released is recorded, and the next
one is tried. Once the budget of time is spent no further claim is begun.

* `SweepConfig` : name, interval, batch limit and budget;
* `SweepSummary` : what became of the claims that were found;
* `Sweeper.sweep` : one sweep;
* `Sweeper.trigger`, `Sweeper.tick` : a sweep on request, and one by the timer; neither overlaps
  another.
-/

namespace StockLedger

/-- How sweeps are run. -/
structure SweepConfig where
  name : String := "reservation-expiry"
  interval : Span := .ofSeconds 60
  /-- The most claims handled by one sweep; 0 means all. -/
  batchLimit : UInt64 := 1000
  /-- How long a sweep may begin new claims; nothing means for ever. -/
  budget : Option Span := some (.ofSeconds 120)
deriving DecidableEq, Repr

/-- A claim that could not be released, and why. -/
structure SweepFailure where
  reservationId : ReservationId
  code : Fault.Code
  reason : String
deriving DecidableEq, Repr

/-- What became of the claims that a sweep found; they are counted when all of them are through. -/
structure SweepSummary where
  found : Nat
  released : Nat := 0
  failed : Nat := 0
  deferred : Nat := 0
  releasedIds : List ReservationId := []
  failures : List SweepFailure := []
  deferredIds : List ReservationId := []
deriving DecidableEq, Repr

namespace SweepSummary

/-- The counts that are recorded. -/
def tally (s : SweepSummary) : SweepTally :=
  { released := s.released, failed := s.failed, deferred := s.deferred }

/-- The summary with its lists counted. -/
def counted (s : SweepSummary) : SweepSummary :=
  { s with
    released := s.releasedIds.length
    failed := s.failures.length
    deferred := s.deferredIds.length }

def addReleased (s : SweepSummary) (id : ReservationId) : SweepSummary :=
  { s with releasedIds := s.releasedIds ++ [id] }

def addFailure (s : SweepSummary) (id : ReservationId) (f : Fault) : SweepSummary :=
  { s with failures := s.failures ++ [⟨id, f.code, f.text⟩] }

def addDeferred (s : SweepSummary) (ids : List ReservationId) : SweepSummary :=
  { s with deferredIds := s.deferredIds ++ ids }

end SweepSummary

/-- What a sweeper works with. -/
structure Sweeper where
  service : Service
  config : SweepConfig := {}

namespace Sweeper

open Program (ask log)

/-! ## One sweep -/

/-- Is the uptime at which the budget ends reached? A budget without end is never asked about. -/
def budgetSpent : Option Int → Program Bool
  | none => return false
  | some deadline => do
      let uptime : Nat ← ask .uptime
      return deadline ≤ uptime

/-- Announces that a claim was released; that this fails is only reported. -/
def announce (r : Reservation) (s : StockItem) : Program Unit := do
  match ← ask (.publish (.ofReservation r s.productId .reservationExpired r.updatedAt)) with
  | .ok () => return
  | .error _ => log .warn "failed to publish stock released event"

/-- Releases claims one after another until none is left or the budget is spent. -/
def releaseAll (w : Sweeper) (deadline : Option Int) :
    List Reservation → SweepSummary → Program SweepSummary
  | [], summary => return summary
  | r :: rest, summary => do
      if ← budgetSpent deadline then
        log .warn "sweep budget spent; deferring remaining reservations"
        return summary.addDeferred ((r :: rest).map Reservation.id)
      else
        match ← (w.service.expire r).run with
        | .ok (settled, s) => do
            announce settled s
            w.releaseAll deadline rest (summary.addReleased r.id)
        | .error f => do
            log .warn "failed to expire reservation"
            w.releaseAll deadline rest (summary.addFailure r.id f)

/-- The refusal of a search that took longer than the budget. -/
def timedOut (w : Sweeper) : Fault :=
  .sweepTimedOut ((w.config.budget.map Span.millis).getD 0).toNat

/-- Searches once and releases what was found. -/
def sweep (w : Sweeper) : Request SweepSummary :=
  .ofProgram do
    let started : Nat ← ask .uptime
    let now ← ask .now
    match ← ask (.findExpiredWithin w.config.budget now w.config.batchLimit) with
    | none => return .error w.timedOut
    | some (.error f) => return .error f
    | some (.ok []) => do
        log .debug "no expired reservations"
        return .ok { found := 0 }
    | some (.ok found) => do
        let deadline := w.config.budget.map fun b => (started : Int) + b.nanos
        let summary ← w.releaseAll deadline found { found := found.length }
        log .info "expired reservations swept"
        return .ok summary.counted

/-! ## Sweeps that do not overlap -/

/-- A sweep whose tally is recorded if it has one; then others may start. -/
def sweepAndLeave (w : Sweeper) : Program (Answer SweepSummary) := do
  match ← w.sweep.run with
  | .ok summary => do
      ask (.recordSweep summary.tally)
      ask .leaveSweep
      return .ok summary
  | .error f => do
      ask .leaveSweep
      return .error f

/-- A sweep on request, refused while another one runs. -/
def trigger (w : Sweeper) : Request SweepSummary :=
  .ofProgram do
    if ← ask .enterSweep then
      w.sweepAndLeave
    else
      return .error (.sweepInProgress w.config.name)

/-- A sweep by the timer, skipped while another one runs. -/
def tick (w : Sweeper) : Program Unit := do
  if ← ask .enterSweep then
    match ← w.sweepAndLeave with
    | .ok _ => return
    | .error _ => log .error "sweep failed"
  else
    ask .recordSkip
    log .debug "previous sweep still running; skipping tick"

end Sweeper
end StockLedger
