import Mathlib.Logic.Relation
import Mathlib.Tactic.Common
import StockLedger.Proofs.Sweep.Notices
import StockLedger.Rehearsal.Stage

/-!
# Sweeps take turns

Any number of sweeps are asked for, by request or by the timer. A program waits whenever it asks a
store, the cache or the publisher for something; then the others go on, and anything may happen to
the stores.

* `Call.waits`, `Program.goOn` : a program as far as it comes without waiting;
* `Program.Unguarded.goOn` : a program that leaves other sweeps alone, followed by another one;
* `SweepRun`, `Sweeps`, `Sweeps.Step` : sweeps that were asked for, and what may happen next;
* `Sweeps.InTurn` : what holds after each step, and `InTurn.step`, `InTurn.reaches`;
* `sweeps_take_turns` : no two sweeps run at once, and the counters are right.
-/

namespace StockLedger

open Sweeper

/-! ## Waiting -/

/-- Does a program wait for the reply to a request, so that others go on meanwhile? -/
def Call.waits : Call → Bool
  | .ledger _ | .reservations _ | .cache _ | .publish _ | .findExpiredWithin _ _ _ => true
  | .now | .uptime | .freshUuid | .enterSweep | .leaveSweep | .recordSweep _ | .recordSkip
  | .log _ => false

/-- A program as far as it comes without waiting, and the stage then. -/
def Program.goOn {α : Type} : Program α → Stage → Program α × Stage
  | .done a, s => (.done a, s)
  | .call c next, s =>
      if c.waits then (.call c next, s) else (next (s.perform c).1).goOn (s.perform c).2
  | .abort, s => (.abort, s)

/-- The program is waiting for a reply. -/
def Program.Waits {α : Type} : Program α → Prop
  | .call c _ => c.waits = true
  | .done _ | .abort => False

/-- What sweeps know of each other is the same. -/
structure Stage.SameSweeps (s t : Stage) : Prop where
  sweeping : t.sweeping = s.sweeping
  stats : t.stats = s.stats

theorem Stage.SameSweeps.refl (s : Stage) : s.SameSweeps s :=
  ⟨rfl, rfl⟩

theorem Stage.SameSweeps.trans {s t u : Stage} (h : s.SameSweeps t) (h' : t.SameSweeps u) :
    s.SameSweeps u :=
  ⟨h'.sweeping.trans h.sweeping, h'.stats.trans h.stats⟩

theorem Stage.sameSweeps_perform (s : Stage) {c : Call} (hc : c.ofGuard = false) :
    s.SameSweeps (s.perform c).2 := by
  cases c with
  | ledger | reservations | cache | now | uptime | freshUuid | findExpiredWithin | log =>
    exact ⟨rfl, rfl⟩
  | publish n =>
    unfold perform announce
    cases s.publisher with
    | recording | failing | logging => exact ⟨rfl, rfl⟩
  | enterSweep | leaveSweep | recordSweep | recordSkip => cases hc

/--
A program that leaves other sweeps alone, and another one after it: either the first one ends
without waiting and the second one goes on, or the first one comes to wait.
-/
theorem Program.Unguarded.goOn {α β : Type} {p : Program α} (hp : p.Unguarded)
    (f : α → Program β) (s : Stage) :
    ∃ t, s.SameSweeps t ∧
      ((∃ a, (p >>= f).goOn s = (f a).goOn t) ∨
        ∃ q : Program α, q.Unguarded ∧ q.Waits ∧ (p >>= f).goOn s = (q >>= f, t)) := by
  -- What is answered at once goes on with the next request; this ends, or comes to a wait.
  induction p generalizing s with
  | done a => exact ⟨s, .refl s, .inl ⟨a, rfl⟩⟩
  | abort => exact hp.elim
  | call c next ih =>
    cases hwaits : c.waits with
    | true =>
      refine ⟨s, .refl s, .inr ⟨.call c next, hp, hwaits, ?_⟩⟩
      exact if_pos hwaits
    | false =>
      obtain ⟨hc, hnext⟩ := hp.head
      obtain ⟨t, hsame, hrest⟩ := ih (s.perform c).1 (hnext _) (s.perform c).2
      have hstep : (Program.call c next >>= f).goOn s =
          (next (s.perform c).1 >>= f).goOn (s.perform c).2 := if_neg (by simp [hwaits])
      rw [hstep]
      exact ⟨t, (s.sameSweeps_perform hc).trans hsame, hrest⟩

/-! ## Sweeps by request and by the timer -/

/-- Who asks for a sweep. -/
inductive Occasion
  | request
  | timer
deriving DecidableEq

/--
What is done on an occasion. The timer does not look at the outcome: a tick is the timed sweep
without it, see `Sweeper.tick_eq_timed`.
-/
def Occasion.program (w : Sweeper) : Occasion → Program (Answer SweepSummary)
  | .request => w.trigger.run
  | .timer => w.timed.run

/-- What is done when the sweep itself has ended. -/
def Sweeper.close : Answer SweepSummary → Program (Answer SweepSummary)
  | .ok summary => do
      Program.ask (.recordSweep summary.tally)
      Program.ask .leaveSweep
      return .ok summary
  | .error f => do
      Program.ask .leaveSweep
      return .error f

def Occasion.ending : Occasion → Answer SweepSummary → Program (Answer SweepSummary)
  | .request, outcome => close outcome
  | .timer, outcome => do
      match ← close outcome with
      | .ok summary => return .ok summary
      | .error f => do
          Program.log .error "sweep failed"
          return .error f

/-- What is done when another sweep is running. -/
def Occasion.refusal (w : Sweeper) : Occasion → Program (Answer SweepSummary)
  | .request => return .error (.sweepInProgress w.config.name)
  | .timer => do
      Program.ask .recordSkip
      Program.log .debug "previous sweep still running; skipping tick"
      return .error (.sweepInProgress w.config.name)

theorem Occasion.program_eq (w : Sweeper) (o : Occasion) :
    o.program w = .call .enterSweep fun free : Bool =>
      match free with
      | true => w.sweep.run >>= o.ending
      | false => o.refusal w := by
  cases o with
  | request =>
    refine congrArg (Program.call .enterSweep) (funext fun free => ?_)
    cases free with
    | true => rfl
    | false => rfl
  | timer =>
    refine congrArg (Program.call .enterSweep) (funext fun free => ?_)
    cases free with
    | true =>
      change (w.sweep.run.andThen close).andThen _ = w.sweep.run.andThen _
      rw [Program.andThen_assoc]
      rfl
    | false => rfl

/-- Whoever comes while a sweep runs is refused, and leaves the guard as it is. -/
theorem Occasion.goOn_busy (w : Sweeper) (o : Occasion) {s : Stage} (h : s.sweeping = true) :
    (o.program w).goOn s = (o.refusal w).goOn s := by
  have henter : s.perform .enterSweep = (false, s) := by
    cases s
    cases h
    rfl
  rw [program_eq, Program.goOn, if_neg (by decide), henter]

/-- Whoever comes while none runs sweeps. -/
theorem Occasion.goOn_free (w : Sweeper) (o : Occasion) {s : Stage} (h : s.sweeping = false) :
    (o.program w).goOn s = (w.sweep.run >>= o.ending).goOn { s with sweeping := true } := by
  have henter : s.perform .enterSweep = (true, { s with sweeping := true }) := by
    cases s
    cases h
    rfl
  rw [program_eq, Program.goOn, if_neg (by decide), henter]

/-- The counters after a sweep with an outcome. -/
def SweepStats.after (stats : SweepStats) : Answer SweepSummary → SweepStats
  | .ok summary => stats.record summary.tally
  | .error _ => stats

/-- When a sweep has ended, the next one may start, and only a summary is counted. -/
theorem Occasion.goOn_ending (o : Occasion) (outcome : Answer SweepSummary) (s : Stage) :
    ∃ t, (o.ending outcome).goOn s = (.done outcome, t) ∧ t.sweeping = false ∧
      t.stats = s.stats.after outcome := by
  cases o with
  | request =>
    match outcome with
    | .ok summary => exact ⟨_, rfl, rfl, rfl⟩
    | .error f => exact ⟨_, rfl, rfl, rfl⟩
  | timer =>
    match outcome with
    | .ok summary => exact ⟨_, rfl, rfl, rfl⟩
    | .error f => exact ⟨_, rfl, rfl, rfl⟩

/-! ## Many sweeps -/

/-- A sweep that was asked for. -/
structure SweepRun where
  occasion : Occasion
  /-- Was no other sweep running when it was asked for? -/
  admitted : Bool
  /-- What is still to be done. -/
  rest : Program (Answer SweepSummary)

namespace SweepRun

/-- The sweep has not come to its end yet. -/
def running (run : SweepRun) : Bool :=
  match run.rest with
  | .done _ => false
  | .call _ _ | .abort => true

/-- The summary with which the sweep ended, if it did. -/
def summary? (run : SweepRun) : Option SweepSummary :=
  match run.rest with
  | .done (.ok summary) => some summary
  | .done (.error _) | .call _ _ | .abort => none

/-- The timer has passed over the sweep because another one was running. -/
def skipped (run : SweepRun) : Bool :=
  run.occasion = .timer && !run.admitted

/-- The sweep has ended, or it was admitted and waits in the middle. -/
def Fits (run : SweepRun) : Prop :=
  (∃ outcome, run.rest = .done outcome) ∨
    (run.admitted = true ∧ ∃ q : Program (Answer SweepSummary),
      q.Unguarded ∧ q.Waits ∧ run.rest = q >>= run.occasion.ending)

end SweepRun

/-- All sweeps that were asked for, in this order, and what they work with. -/
structure Sweeps where
  stage : Stage
  runs : List SweepRun := []

namespace Sweeps

/-- The summaries with which sweeps ended. -/
def summaries (m : Sweeps) : List SweepSummary :=
  m.runs.filterMap SweepRun.summary?

/-- A sweep is asked for, and goes on until it waits. -/
def arrive (w : Sweeper) (m : Sweeps) (o : Occasion) : Sweeps :=
  { stage := ((o.program w).goOn m.stage).2
    runs := m.runs ++ [⟨o, !m.stage.sweeping, ((o.program w).goOn m.stage).1⟩] }

/-- A sweep among others goes on until it waits. -/
def proceed (before after : List SweepRun) (run : SweepRun)
    (next : Program (Answer SweepSummary)) (stage : Stage) : Sweeps :=
  { stage := (next.goOn stage).2
    runs := before ++ { run with rest := (next.goOn stage).1 } :: after }

/--
What may happen next: a sweep is asked for, a sweep that waits gets a reply, or others change
something. A reply may be any, and whatever changes, only sweeps themselves keep track of sweeps.
-/
inductive Step (w : Sweeper) : Sweeps → Sweeps → Prop
  | arrives (m : Sweeps) (o : Occasion) : Step w m (m.arrive w o)
  | answered {before after : List SweepRun} {run : SweepRun} {c : Call}
      {next : c.Reply → Program (Answer SweepSummary)} {stage stage' : Stage}
      (hrest : run.rest = .call c next) (r : c.Reply) (hstage : stage.SameSweeps stage') :
      Step w ⟨stage, before ++ run :: after⟩ (proceed before after run (next r) stage')
  | passes {runs : List SweepRun} {stage stage' : Stage} (hstage : stage.SameSweeps stage') :
      Step w ⟨stage, runs⟩ ⟨stage', runs⟩

abbrev Reaches (w : Sweeper) : Sweeps → Sweeps → Prop :=
  Relation.ReflTransGen (Step w)

/-- What sweeps add up to. -/
def totals (runs : List SweepRun) : SweepStats :=
  let tallies := (runs.filterMap SweepRun.summary?).map SweepSummary.tally
  { ticks := .ofNat tallies.length
    skipped := .ofNat (runs.countP SweepRun.skipped)
    released := .ofNat (tallies.map SweepTally.released).sum
    failed := .ofNat (tallies.map SweepTally.failed).sum
    deferred := .ofNat (tallies.map SweepTally.deferred).sum }

/-- Sweeps run one at a time, and are counted when they end. -/
structure InTurn (m : Sweeps) : Prop where
  fits : ∀ run ∈ m.runs, run.Fits
  guard : m.runs.countP SweepRun.running = m.stage.sweeping.toNat
  stats : m.stage.stats = totals m.runs

/-! ## Adding up -/

/-- Where a sweep stands in the list does not matter to the sums. -/
theorem totals_perm {runs runs' : List SweepRun} (h : runs.Perm runs') :
    totals runs = totals runs' := by
  have htallies := (h.filterMap SweepRun.summary?).map SweepSummary.tally
  simp only [totals, htallies.length_eq, h.countP_eq, (htallies.map _).sum_eq]

theorem totals_cons_unfinished {run : SweepRun} (hsummary : run.summary? = none)
    (hskipped : run.skipped = false) (runs : List SweepRun) :
    totals (run :: runs) = totals runs := by
  simp [totals, hsummary, hskipped]

theorem totals_cons_skipped {run : SweepRun} (hsummary : run.summary? = none)
    (hskipped : run.skipped = true) (runs : List SweepRun) :
    totals (run :: runs) = (totals runs).skip := by
  simp [totals, hsummary, hskipped, SweepStats.skip]

theorem totals_cons_ended {run : SweepRun} {outcome : Answer SweepSummary}
    (hrest : run.rest = .done outcome) (hskipped : run.skipped = false) (runs : List SweepRun) :
    totals (run :: runs) = (totals runs).after outcome := by
  match outcome with
  | .ok summary =>
    have hsummary : run.summary? = some summary := by rw [SweepRun.summary?, hrest]
    simp [totals, hsummary, hskipped, SweepStats.after, SweepStats.record, UInt64.add_comm]
  | .error f =>
    have hsummary : run.summary? = none := by rw [SweepRun.summary?, hrest]
    exact totals_cons_unfinished hsummary hskipped runs

/-! ## A sweep is asked for -/

section

variable {w : Sweeper} {stack : Stack} {m : Sweeps}

/-- A request for a sweep is refused while one runs. -/
theorem arrive_request (h : m.stage.sweeping = true) :
    m.arrive w .request =
      { m with
        runs := m.runs ++ [⟨.request, false, .done (.error (.sweepInProgress w.config.name))⟩] } := by
  rw [arrive, Occasion.goOn_busy w .request h, h]
  rfl

/-- The timer passes over a sweep while one runs, and counts that. -/
theorem arrive_timer (h : m.stage.sweeping = true) :
    m.arrive w .timer =
      { stage := { m.stage with stats := m.stage.stats.skip }.report .debug
          "previous sweep still running; skipping tick"
        runs := m.runs ++ [⟨.timer, false, .done (.error (.sweepInProgress w.config.name))⟩] } := by
  rw [arrive, Occasion.goOn_busy w .timer h, h]
  rfl

/-- A sweep that is admitted comes to wait for its search. -/
theorem arrive_admitted (hw : w.service.ledger = stack.ledger) (h : m.stage.sweeping = false)
    (o : Occasion) :
    ∃ next : (Call.findExpiredWithin w.config.budget m.stage.clock.now w.config.batchLimit).Reply →
        Program (Answer SweepSummary),
      (Program.call _ next).Unguarded ∧
      m.arrive w o =
        { stage := { m.stage with sweeping := true }
          runs := m.runs ++ [⟨o, true, Program.call _ next >>= o.ending⟩] } := by
  have hsweep : Program.Unguarded w.sweep.run := unguarded_sweep hw
  have hsearch := (hsweep.head.2 m.stage.uptime).head.2 m.stage.clock.now
  refine ⟨_, hsearch, ?_⟩
  rw [arrive, Occasion.goOn_free w o h, h]
  rfl

end

/-! ## Every step -/

section

variable {w : Sweeper} {stack : Stack} {m m' : Sweeps}

theorem running_of_waits {run : SweepRun} {α : Type} {q : Program α}
    {f : α → Program (Answer SweepSummary)} (hq : q.Waits) (hrest : run.rest = q >>= f) :
    run.running = true := by
  cases q with
  | call c next =>
    rw [SweepRun.running, hrest]
    rfl
  | done | abort => exact hq.elim

theorem summary?_of_running {run : SweepRun} (h : run.running = true) : run.summary? = none := by
  unfold SweepRun.running at h
  unfold SweepRun.summary?
  cases hrest : run.rest with
  | done outcome =>
    rw [hrest] at h
    cases h
  | call | abort => rfl

theorem skipped_of_admitted {run : SweepRun} (h : run.admitted = true) : run.skipped = false := by
  simp [SweepRun.skipped, h]

/-- One more sweep was asked for. -/
theorem InTurn.add {run : SweepRun} {stage : Stage} (hm : m.InTurn) (hfits : run.Fits)
    (hguard : m.stage.sweeping.toNat + run.running.toNat = stage.sweeping.toNat)
    (hstats : stage.stats = totals (run :: m.runs)) : InTurn ⟨stage, m.runs ++ [run]⟩ where
  fits := by
    intro r hr
    rcases List.mem_append.1 hr with hold | hnew
    · exact hm.fits r hold
    · rw [List.mem_singleton.1 hnew]
      exact hfits
  guard := by
    have hlast : [run].countP SweepRun.running = run.running.toNat := by
      cases hrunning : run.running with
      | true | false => simp [hrunning]
    rw [List.countP_append, hm.guard, hlast, hguard]
  stats := hstats.trans (totals_perm (List.perm_append_singleton run m.runs).symm)

theorem InTurn.arrive (hw : w.service.ledger = stack.ledger) (hm : m.InTurn) (o : Occasion) :
    (m.arrive w o).InTurn := by
  cases hsweeping : m.stage.sweeping with
  | true =>
    cases o with
    | request =>
      rw [arrive_request hsweeping]
      exact hm.add (.inl ⟨_, rfl⟩) rfl (hm.stats.trans (totals_cons_unfinished rfl rfl _).symm)
    | timer =>
      rw [arrive_timer hsweeping]
      refine hm.add (.inl ⟨_, rfl⟩) rfl ?_
      rw [totals_cons_skipped rfl rfl]
      exact congrArg SweepStats.skip hm.stats
  | false =>
    obtain ⟨next, hnext, harrive⟩ := arrive_admitted hw hsweeping o
    rw [harrive]
    let run : SweepRun := ⟨o, true, Program.call _ next >>= o.ending⟩
    have hwaits : (Program.call _ next).Waits := Eq.refl true
    have hrunning : run.running = true := running_of_waits hwaits rfl
    have htotals : totals (run :: m.runs) = totals m.runs :=
      totals_cons_unfinished (summary?_of_running hrunning) (skipped_of_admitted rfl) _
    -- The guard was free, and the sweep that was admitted has taken it.
    refine hm.add (.inr ⟨rfl, _, hnext, hwaits, rfl⟩) ?_ (hm.stats.trans htotals.symm)
    rw [hsweeping, hrunning]
    rfl

variable {before after : List SweepRun} {run run' : SweepRun} {stage stage' : Stage}

/-- No other sweep runs beside one that does. -/
theorem InTurn.only (hm : InTurn ⟨stage, before ++ run :: after⟩) (hrunning : run.running = true) :
    (before ++ after).countP SweepRun.running = 0 ∧ stage.sweeping = true := by
  have hguard : (run :: (before ++ after)).countP SweepRun.running = stage.sweeping.toNat :=
    (List.perm_middle.countP_eq _).symm.trans hm.guard
  rw [List.countP_cons, hrunning, if_pos rfl] at hguard
  cases hsweeping : stage.sweeping with
  | true =>
    rw [hsweeping] at hguard
    exact ⟨Nat.succ.inj hguard, rfl⟩
  | false =>
    rw [hsweeping] at hguard
    cases hguard

/-- The sweep that runs comes to another state. -/
theorem InTurn.replace (hm : InTurn ⟨stage, before ++ run :: after⟩)
    (hrunning : run.running = true) (hfits : run'.Fits) (hguard : run'.running = stage'.sweeping)
    (hstats : stage'.stats = totals (run' :: (before ++ after))) :
    InTurn ⟨stage', before ++ run' :: after⟩ where
  fits := by
    intro other hother
    rcases List.mem_cons.1 (List.perm_middle.subset hother) with rfl | hrest
    · exact hfits
    · exact hm.fits other (List.perm_middle.symm.subset (List.mem_cons_of_mem _ hrest))
  guard := by
    rw [List.perm_middle.countP_eq, List.countP_cons, (hm.only hrunning).1, hguard, Nat.zero_add]
    cases stage'.sweeping with
    | true | false => rfl
  stats := hstats.trans (totals_perm List.perm_middle).symm

/-- A sweep that runs is in no sum yet. -/
theorem InTurn.stats_others (hm : InTurn ⟨stage, before ++ run :: after⟩)
    (hrunning : run.running = true) (hadmitted : run.admitted = true) :
    stage.stats = totals (before ++ after) := by
  have hsummary : run.summary? = none := summary?_of_running hrunning
  have hskipped : run.skipped = false := skipped_of_admitted hadmitted
  calc
    stage.stats = totals (before ++ run :: after) := hm.stats
    _ = totals (run :: (before ++ after)) := totals_perm List.perm_middle
    _ = totals (before ++ after) := totals_cons_unfinished hsummary hskipped _

/-- The sweep that runs comes to wait again. -/
theorem InTurn.wait {q : Program (Answer SweepSummary)}
    (hm : InTurn ⟨stage, before ++ run :: after⟩) (hrunning : run.running = true)
    (hadmitted : run.admitted = true) (hq : q.Unguarded) (hwaits : q.Waits)
    (hstage : stage.SameSweeps stage') :
    InTurn ⟨stage', before ++ { run with rest := q >>= run.occasion.ending } :: after⟩ := by
  let waiting : SweepRun := { run with rest := q >>= run.occasion.ending }
  have hstill : waiting.running = true := running_of_waits hwaits rfl
  have hbusy : stage'.sweeping = true := hstage.sweeping.trans (hm.only hrunning).2
  refine hm.replace hrunning (.inr ⟨hadmitted, q, hq, hwaits, rfl⟩) (hstill.trans hbusy.symm) ?_
  calc
    stage'.stats = totals (before ++ after) :=
      hstage.stats.trans (hm.stats_others hrunning hadmitted)
    _ = totals (waiting :: (before ++ after)) :=
      (totals_cons_unfinished (summary?_of_running hstill) (skipped_of_admitted hadmitted) _).symm

/-- The sweep that runs ends, which frees the guard, and is counted if it has a summary. -/
theorem InTurn.finish {outcome : Answer SweepSummary}
    (hm : InTurn ⟨stage, before ++ run :: after⟩) (hrunning : run.running = true)
    (hadmitted : run.admitted = true) (hfree : stage'.sweeping = false)
    (hcounted : stage'.stats = stage.stats.after outcome) :
    InTurn ⟨stage', before ++ { run with rest := .done outcome } :: after⟩ := by
  let ended : SweepRun := { run with rest := .done outcome }
  have hrest : ended.rest = .done outcome := rfl
  refine hm.replace hrunning (.inl ⟨outcome, rfl⟩) hfree.symm ?_
  calc
    stage'.stats = (totals (before ++ after)).after outcome := by
      rw [hcounted, hm.stats_others hrunning hadmitted]
    _ = totals (ended :: (before ++ after)) :=
      (totals_cons_ended hrest (skipped_of_admitted hadmitted) _).symm

/-- The only sweep that runs goes on: it waits again, or ends and is counted. -/
theorem InTurn.proceed {c : Call} {next : c.Reply → Program (Answer SweepSummary)}
    (hm : InTurn ⟨stage, before ++ run :: after⟩) (hrest : run.rest = .call c next)
    (r : c.Reply) (hstage : stage.SameSweeps stage') :
    (Sweeps.proceed before after run (next r) stage').InTurn := by
  have hrunning : run.running = true := by rw [SweepRun.running, hrest]
  rcases hm.fits run (List.mem_append_right _ (List.mem_cons_self ..)) with
    ⟨outcome, hdone⟩ | ⟨hadmitted, q, hq, hwaits, hending⟩
  · rw [hrest] at hdone
    cases hdone
  · cases q with
    | done | abort => exact hwaits.elim
    | call c' next' =>
      have hsame : Program.call c next = Program.call c' fun r => next' r >>= run.occasion.ending :=
        hrest.symm.trans hending
      cases hsame
      obtain ⟨t, ht, ⟨outcome, hgo⟩ | ⟨q, hq', hwaits', hgo⟩⟩ :=
        Program.Unguarded.goOn (hq.head.2 r) run.occasion.ending stage'
      · -- The sweep has ended; what remains to be done takes no waiting.
        obtain ⟨u, hend, hfree, hcounted⟩ := run.occasion.goOn_ending outcome t
        rw [Sweeps.proceed, hgo, hend]
        rw [(hstage.trans ht).stats] at hcounted
        exact hm.finish hrunning hadmitted hfree hcounted
      · rw [Sweeps.proceed, hgo]
        exact hm.wait hrunning hadmitted hq' hwaits' (hstage.trans ht)

theorem InTurn.step (hw : w.service.ledger = stack.ledger) (hm : m.InTurn)
    (hstep : m.Step w m') : m'.InTurn := by
  cases hstep with
  | arrives _ o => exact hm.arrive hw o
  | answered hrest r hstage => exact hm.proceed hrest r hstage
  | passes hstage =>
    exact ⟨hm.fits, hstage.sweeping ▸ hm.guard, hstage.stats.trans hm.stats⟩

theorem InTurn.reaches (hw : w.service.ledger = stack.ledger) (hm : m.InTurn)
    (hreaches : m.Reaches w m') : m'.InTurn := by
  induction hreaches with
  | refl => exact hm
  | tail _ hstep ih => exact ih.step hw hstep

theorem inTurn_start {stage : Stage} (hfree : stage.sweeping = false) (hstats : stage.stats = {}) :
    InTurn { stage } where
  fits := fun _ hrun => nomatch hrun
  guard := by
    rw [hfree]
    rfl
  stats := hstats

/-- When the sweep that runs comes to its end, none is left that runs. -/
theorem InTurn.free_of_ended {c : Call} {next : c.Reply → Program (Answer SweepSummary)}
    (hm : InTurn ⟨stage, before ++ run :: after⟩) (hrest : run.rest = .call c next)
    (r : c.Reply) (hstage : stage.SameSweeps stage') {outcome : Answer SweepSummary}
    (hended : ((next r).goOn stage').1 = .done outcome) :
    (Sweeps.proceed before after run (next r) stage').stage.sweeping = false := by
  have hrunning : run.running = true := by rw [SweepRun.running, hrest]
  have hguard := (hm.proceed hrest r hstage).guard
  rw [Sweeps.proceed, List.perm_middle.countP_eq, List.countP_cons, (hm.only hrunning).1,
    SweepRun.running, hended] at hguard
  exact Bool.toNat_eq_zero.1 hguard.symm

/-- The next sweep that is asked for is admitted, and comes to wait for its search. -/
def Admits (w : Sweeper) (m : Sweeps) : Prop :=
  ∀ o, ∃ next : (Call.findExpiredWithin w.config.budget m.stage.clock.now
      w.config.batchLimit).Reply → Program (Answer SweepSummary),
    m.arrive w o =
      { stage := { m.stage with sweeping := true }
        runs := m.runs ++ [⟨o, true, .call _ next⟩] }

theorem admits_of_free (hw : w.service.ledger = stack.ledger) (h : m.stage.sweeping = false) :
    m.Admits w := by
  intro o
  obtain ⟨next, -, harrive⟩ := arrive_admitted hw h o
  exact ⟨fun found => next found >>= o.ending, harrive⟩

end
end Sweeps

/--
Sweeps are asked for by request and by the timer, in any number and at any time, and what they wait
for is answered in any way. At most one of them runs. While it does, a request for another one is
refused and changes nothing, and the timer counts that it passes over one and does nothing else.
Once it has ended, however it did, the next one is admitted. At any time the counters are the sums
over the summaries with which sweeps ended.
-/
theorem sweeps_take_turns (stack : Stack) (ttl : Span) (config : SweepConfig) {stage : Stage}
    (hfree : stage.sweeping = false) (hstats : stage.stats = {}) {m : Sweeps}
    (hm : Sweeps.Reaches (stack.sweeper ttl config) { stage } m) :
    let w := stack.sweeper ttl config
    m.runs.countP SweepRun.running ≤ 1 ∧
    ((∃ run ∈ m.runs, run.running = true) →
      m.arrive w .request =
        { m with
          runs := m.runs ++ [⟨.request, false, .done (.error (.sweepInProgress config.name))⟩] } ∧
      m.arrive w .timer =
        { stage := { m.stage with stats := m.stage.stats.skip }.report .debug
            "previous sweep still running; skipping tick"
          runs := m.runs ++ [⟨.timer, false, .done (.error (.sweepInProgress config.name))⟩] }) ∧
    ((∀ run ∈ m.runs, run.running = false) → m.Admits w) ∧
    (∀ (before after : List SweepRun) (run : SweepRun) (c : Call)
      (next : c.Reply → Program (Answer SweepSummary)) (r : c.Reply) (stage' : Stage)
      (outcome : Answer SweepSummary), m.runs = before ++ run :: after → run.rest = .call c next →
      m.stage.SameSweeps stage' → ((next r).goOn stage').1 = .done outcome →
      (Sweeps.proceed before after run (next r) stage').Admits w) ∧
    m.stage.stats = Sweeps.totals m.runs := by
  intro w
  have hturn : m.InTurn := (Sweeps.inTurn_start hfree hstats).reaches rfl hm
  refine ⟨?_, ?_, ?_, ?_, hturn.stats⟩
  · rw [hturn.guard]
    exact Bool.toNat_le m.stage.sweeping
  · rintro ⟨run, hmem, hrunning⟩
    have hsweeping : m.stage.sweeping = true := by
      have hpos : 0 < m.runs.countP SweepRun.running := List.countP_pos_iff.2 ⟨run, hmem, hrunning⟩
      rw [hturn.guard] at hpos
      by_contra hfree
      rw [Bool.not_eq_true] at hfree
      rw [hfree] at hpos
      cases hpos
    exact ⟨Sweeps.arrive_request hsweeping, Sweeps.arrive_timer hsweeping⟩
  · intro hidle
    have hnone : m.runs.countP SweepRun.running = 0 := by
      refine List.countP_eq_zero.2 fun run hmem => ?_
      rw [hidle run hmem]
      exact Bool.false_ne_true
    rw [hturn.guard] at hnone
    exact Sweeps.admits_of_free rfl (Bool.toNat_eq_zero.1 hnone)
  · intro before after run c next r stage' outcome hruns hrest hstage hended
    have hturn' : Sweeps.InTurn ⟨m.stage, before ++ run :: after⟩ := by
      rw [← hruns]
      exact hturn
    exact Sweeps.admits_of_free rfl (hturn'.free_of_ended hrest r hstage hended)

namespace TakingTurns

def stage : Stage where
  clock := { now := .epoch }
  ids := { millis := 0 }

def w : Sweeper :=
  Stack.plain.sweeper Reservation.defaultTtl {}

/-- A sweep was asked for, and waits for its search. -/
def begun : Sweeps :=
  Sweeps.arrive w { stage } .request

theorem reaches_begun : Sweeps.Reaches w { stage } begun :=
  .single (.arrives _ .request)

/-- While the sweep waits, a second request is refused, and the timer counts that it passes. -/
theorem sweeps_take_turns_begun :
    stage.sweeping = false ∧ stage.stats = {} ∧ Sweeps.Reaches w { stage } begun ∧
    begun.arrive w .request =
      { begun with
        runs := begun.runs ++
          [⟨.request, false, .done (.error (.sweepInProgress "reservation-expiry"))⟩] } ∧
    (begun.arrive w .timer).stage.stats = { skipped := 1 } := by
  obtain ⟨-, hbusy, -, -, hstats⟩ :=
    sweeps_take_turns .plain Reservation.defaultTtl {} rfl rfl reaches_begun
  obtain ⟨hrequest, htimer⟩ := hbusy ⟨_, List.mem_singleton_self _, rfl⟩
  refine ⟨rfl, rfl, reaches_begun, hrequest, ?_⟩
  calc
    (begun.arrive w .timer).stage.stats = begun.stage.stats.skip :=
      congrArg (fun m => m.stage.stats) htimer
    _ = (Sweeps.totals begun.runs).skip := by rw [hstats]
    _ = { skipped := 1 } := rfl

end TakingTurns
end StockLedger
