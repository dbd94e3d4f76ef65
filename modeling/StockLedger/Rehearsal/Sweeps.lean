import StockLedger.Rehearsal.Stage
import StockLedger.Sweep.Basic
import StockLedger.Sweep.Timer

/-!
# Rehearsing sweeps

* `Stage.begin` : a program as far as it comes, where a search without any time gives up at once;
* `Stage.carryOut` : a program that may break off, on its own;
* `Stage.sweepOnce` : a sweep on request, which gives up if its search hangs;
* `Stage.overlap` : a second sweep while the first one hangs in its search;
* `SweepLoop` : sweeps by a timer while time moves in jumps, perhaps beside a sweep that hangs.
-/

namespace StockLedger

namespace Stage

/-- The value that a program ended with. -/
def Progress.value? : Progress α → Option α
  | .ended a => some a
  | _ => none

/-- A sweep that broke off lets others start. -/
def release (p : Progress α) (s : Stage) : Stage :=
  match p with
  | .broken => { s with sweeping := false }
  | _ => s

/-- Runs a program as far as it comes; a search that hangs without any time gives up at once. -/
def begin (budget : Option Span) (p : Program α) (s : Stage) : Progress α × Stage :=
  let (p, s) := s.run budget p
  if budget.any fun b => b.nanos.toNat = 0 then s.giveUp budget p else (p, s)

/-- The value of a program, or nothing if it broke off; a search that hangs gives up. -/
def carryOut (budget : Option Span) (p : Program α) (s : Stage) : Option α × Stage :=
  let (p, s) := s.run budget p
  let (p, s) := s.giveUp budget p
  (Progress.value? p, s.release p)

/-- A sweep on request. -/
def sweepOnce (w : Sweeper) (s : Stage) : Option (Answer SweepSummary) × Stage :=
  s.carryOut w.config.budget w.trigger.run

/-- The method in which sweeps search. -/
def searchMethod : String :=
  (ReservationCall.findExpired .epoch 0).method

/-- A sweep that hangs in its search, or as far as it comes. -/
def beginHeld (w : Sweeper) (s : Stage) : Progress (Answer SweepSummary) × Stage :=
  (s.addFirst searchMethod { hang := true }).begin w.config.budget w.trigger.run

/-- A second sweep is triggered while the first one hangs; then the first one goes on. -/
def overlap (w : Sweeper) (s : Stage) :
    Option (Answer SweepSummary × Answer SweepSummary) × Stage :=
  let (first, s) := s.beginHeld w
  let (second, s) := s.sweepOnce w
  let (first, s) := s.resume w.config.budget first
  let s := s.release first
  match Progress.value? first, second with
  | some a, some b => (some (a, b), s)
  | _, _ => (none, s)

end Stage

/-! ## Sweeps by a timer -/

/-- Sweeps by a timer, perhaps beside a sweep on request. Times count from the start of the loop. -/
structure SweepLoop where
  stage : Stage
  timer : Timer
  elapsed : Nat := 0
  /-- A sweep by the timer whose search hangs. -/
  hanging : Option (Progress Unit × Option Nat) := none
  /-- A sweep on request, which may hang since before the start. -/
  manual : Option (Progress (Answer SweepSummary)) := none
  broken : Bool := false

namespace SweepLoop

/-- Is a program past the moment at which its search gives up? -/
def overdue (elapsed : Nat) (giveUpAt : Option Nat) : Bool :=
  giveUpAt.any (· ≤ elapsed)

/-- When a search that starts now gives up. -/
def giveUpAt (w : Sweeper) (elapsed : Nat) : Option Nat :=
  w.config.budget.map fun b => elapsed + b.nanos.toNat

/-- Takes note of how far a sweep by the timer came. -/
def afterTick (w : Sweeper) (l : SweepLoop) : Progress Unit × Stage → SweepLoop
  | (.ended (), s) => { l with stage := s, hanging := none }
  | (.broken, s) =>
      { l with stage := { s with sweeping := false }, hanging := none, broken := true }
  | (p, s) => { l with stage := s, hanging := some (p, giveUpAt w l.elapsed) }

/-- Makes the sweeps that are due, until one hangs. -/
def runDue (w : Sweeper) (elapsed : Nat) (timer : Timer) (l : SweepLoop) : SweepLoop :=
  if _due : timer.due elapsed = true then
    if l.broken || l.hanging.isSome then { l with timer }
    else
      runDue w elapsed (timer.fire elapsed)
        (l.afterTick w (l.stage.begin w.config.budget w.tick))
  else
    { l with timer }
termination_by elapsed + 1 - timer.deadline
decreasing_by
  have := Timer.deadline_lt_fire _due
  have : timer.deadline ≤ elapsed := by simpa [Timer.due] using _due
  omega

/-- Ends a search by the timer that has hung for longer than the budget. -/
def giveUpTick (w : Sweeper) (l : SweepLoop) : SweepLoop :=
  match l.hanging with
  | some (p, at_) =>
      if overdue l.elapsed at_ then l.afterTick w (l.stage.giveUp w.config.budget p) else l
  | none => l

/-- Ends a search on request that has hung for longer than the budget. -/
def giveUpManual (w : Sweeper) (l : SweepLoop) : SweepLoop :=
  match l.manual with
  | some p =>
      if overdue l.elapsed (giveUpAt w 0) then
        let (p, s) := l.stage.giveUp w.config.budget p
        { l with stage := s.release p, manual := some p }
      else l
  | none => l

/-- Ends a rehearsal early: only the stage is left, and the sweeps under way are gone. -/
def abandon (s : Stage) : Except Stage α :=
  .error { s with sweeping := false }

/-- Lets a sweep on request go; if it breaks off, so does the rehearsal. -/
def letGo (w : Sweeper) (l : SweepLoop) : Except Stage SweepLoop :=
  match l.manual with
  | some p =>
      match l.stage.resume w.config.budget p with
      | (.broken, s) => abandon s
      | (p, s) => .ok { l with stage := s, manual := some p }
  | none => .ok l

/-- What became due: the sweep on request first if its moment came before that of the timer. -/
def catchUp (w : Sweeper) (l : SweepLoop) : SweepLoop :=
  let l := if overdue l.timer.deadline (giveUpAt w 0) then l.giveUpManual w else l
  let l := l.giveUpTick w
  let l := runDue w l.elapsed l.timer l
  l.giveUpManual w

/-- Starts the loop; `held` says whether a sweep on request hangs beside it. -/
def start (w : Sweeper) (held : Bool) (s : Stage) : SweepLoop :=
  let timer := Timer.start w.config.interval
  let l : SweepLoop :=
    if held then
      let (p, s) := s.beginHeld w
      { stage := s, timer, manual := some p }
    else
      { stage := s, timer }
  let l := { l with stage := l.stage.report .info "expiration sweeper starting" }
  l.catchUp w

/-- Moves the clock and the timer by so many milliseconds; if the clock jams, all breaks off. -/
def jump (w : Sweeper) (millis : Nat) (l : SweepLoop) : Except Stage SweepLoop :=
  match l.stage.shiftClock (.ofMillis millis) with
  | some stage =>
      .ok ({ l with stage, elapsed := l.elapsed + millis * Timer.perMilli }.catchUp w)
  | none => abandon l.stage.jamClock

/-- Stops the loop once what hangs has come to an end. -/
def stop (w : Sweeper) (l : SweepLoop) : Except Stage SweepLoop := do
  let l ← l.letGo w
  let l := match l.hanging with
    | some (p, _) => l.afterTick w (l.stage.giveUp w.config.budget p)
    | none => l
  if l.broken then
    .ok l
  else
    .ok { l with stage := l.stage.report .info "expiration sweeper stopped" }

/-- The counters after the start and after each jump. -/
structure Record where
  points : List SweepStats
  stopped : Bool
  manual : Option (Answer SweepSummary)

/--
Jumps one after another; the sweep on request is let go before the jump with the given number,
counted from one. Returns the counters after each jump.
-/
def jumps (w : Sweeper) (letGoAt : Option Nat) :
    Nat → List Nat → SweepLoop → Except Stage (List SweepStats × SweepLoop)
  | _, [], l => .ok ([], l)
  | n, d :: ds, l => do
      let l ← if letGoAt == some n then l.letGo w else .ok l
      let l ← l.jump w d
      let (points, last) ← jumps w letGoAt (n + 1) ds l
      .ok (l.stage.stats :: points, last)

/-- A whole loop: start, jumps, stop. Nothing is recorded if it breaks off. -/
def rehearse (w : Sweeper) (millis : List Nat) (letGoAt : Option Nat) (s : Stage) :
    Option Record × Stage :=
  let l := start w letGoAt.isSome s
  let whole : Except Stage (List SweepStats × SweepLoop) := do
    let (points, last) ← jumps w letGoAt 1 millis l
    .ok (l.stage.stats :: points, ← last.stop w)
  match whole with
  | .error s => (none, s)
  | .ok (points, l) =>
      (some { points, stopped := !l.broken
              manual := l.manual.bind Stage.Progress.value? }, l.stage)

end SweepLoop
end StockLedger
