import Mathlib.Tactic.Common
import StockLedger.Proofs.Program.Through
import StockLedger.Proofs.ReadThrough.Transparency
import StockLedger.Proofs.Rehearsal.Calm
import StockLedger.Proofs.Rehearsal.Refusals
import StockLedger.Proofs.Rehearsal.Twins
import StockLedger.Rehearsal.Sweeps

/-!
# Programs on a tableau

A workflow asks the stores, the clock and the source of identities, so that a tableau is all that
it needs. On a stage without cues it does the same, also if a cache stands before the ledger.

* `Tableau.answer?`, `Tableau.run` : requests and programs on a tableau;
* `Tableau.setting` : a program that is alone with a tableau;
* `Stage.Steady` : no cue waits, and the cache, if there is one, says nothing untrue;
* `Stage.run_of_runOn` : what is answered at a desk is answered on a stage;
* `Stage.Steady.ask`, `Stage.Steady.run` : a request and a program, on a stage and on its tableau.
-/

namespace StockLedger

/-! ## Tableaus -/

namespace Tableau

/-- The reply to a request of a workflow, and what is shown then. -/
def answer? (d : Tableau) : (c : Call) → Option (c.Reply × Tableau)
  | .ledger c => some (d.ledger.reply d.now c, { d with ledger := d.ledger.apply d.now c })
  | .reservations c =>
      some (d.reservations.reply c, { d with reservations := d.reservations.apply c })
  | .now => some (d.now, d)
  | .freshUuid => some (d.ids.next.1, { d with ids := d.ids.next.2 })
  | .log _ => some ((), d)
  | _ => none

/-- The outcome of a program, unless it breaks off, and what is shown in the end. -/
def run {α : Type} : Program α → Tableau → Option α × Tableau
  | .done a, d => (some a, d)
  | .call c next, d =>
      match d.answer? c with
      | some (r, e) => run (next r) e
      | none => (none, d)
  | .abort, d => (none, d)

theorem run_call {α : Type} {d e : Tableau} {c : Call} {r : c.Reply} {next : c.Reply → Program α}
    (h : d.answer? c = some (r, e)) : run (.call c next) d = run (next r) e := by
  rw [run, h]

/-- Nobody but the tableau is there. -/
abbrev setting (allows : Tableau → Call → Prop) : Setting Tableau where
  drifts d e := e = d
  allows d c := (d.answer? c).isSome ∧ allows d c
  mayBreak := True
  answers c d r e := d.answer? c = some (r, e)

end Tableau

/-! ## A desk on a stage -/

namespace Stage

variable {α : Type} {s s' t : Stage}

/-- Nothing but the ledger and the cache is different, and no cue waits. -/
structure Aside (s t : Stage) : Prop where
  cues : t.cues = []
  clock : t.clock = s.clock
  uptime : t.uptime = s.uptime
  ids : t.ids = s.ids
  reservations : t.reservations = s.reservations

theorem clock_perform (s : Stage) (c : Call) : (s.perform c).2.clock = s.clock := by
  cases c with
  | publish n =>
    unfold perform announce
    split <;> rfl
  | _ => rfl

theorem clock_complete (s : Stage) (cue : Cue) (c : Call) :
    (s.complete cue c).2.clock = s.clock := by
  cases h : cue.fail.bind fun f => refuse f c with
  | some r => rw [complete_of_refused h]
  | none =>
    rcases complete_of_made h s with ⟨r, -, hcomplete⟩
    rw [hcomplete]
    exact s.clock_perform c

/-- Without a cue a call is carried out, and the clock stands still meanwhile. -/
theorem serve_calm (h : s.cues = []) (c : Call) :
    (s.serve c).1 = (s.perform c).1 ∧ (s.serve c).2.scenery = (s.perform c).2.scenery ∧
      (s.serve c).2.cues = [] ∧ (s.serve c).2.clock = s.clock := by
  rcases serve_of_cues_nil h c with ⟨hreply, hscenery, hcues⟩
  rcases (refusingOnly_of_cues_nil h "").refusing.serve_eq c with ⟨items, claims, hserve⟩
  refine ⟨hreply, hscenery, hcues, ?_⟩
  rw [hserve]
  exact clock_complete _ _ _

theorem run_call_calm (h : s.cues = []) (c : Call) (next : c.Reply → Program α) :
    s.run none (.call c next) = (s.serve c).2.run none (next (s.serve c).1) :=
  (refusingOnly_of_cues_nil h "").refusing.run_call next

/-- A request that a desk answers is answered in the same way on a stage. -/
theorem serve_of_answer {d e : Desk} {c : Call} {r : c.Reply} (hcues : s.cues = [])
    (hledger : s.ledger = d.ledger) (hcache : s.cache = d.cache)
    (h : d.answer? (fun _ => .none s.uptime) s.clock.now c = some (r, e)) :
    (s.serve c).1 = r ∧ (s.serve c).2.ledger = e.ledger ∧ (s.serve c).2.cache = e.cache ∧
      s.Aside (s.serve c).2 := by
  rcases serve_calm hcues c with ⟨hreply, hscenery, hcues', hclock⟩
  have haside (hids : (s.perform c).2.ids = s.ids)
      (hreservations : (s.perform c).2.reservations = s.reservations)
      (huptime : (s.perform c).2.uptime = s.uptime) : s.Aside (s.serve c).2 :=
    ⟨hcues', hclock, (congrArg Scenery.uptime hscenery).trans huptime,
      (congrArg Scenery.ids hscenery).trans hids,
      (congrArg Scenery.reservations hscenery).trans hreservations⟩
  have hledger' := congrArg Scenery.ledger hscenery
  have hcache' := congrArg Scenery.cache hscenery
  cases c with
  | ledger c =>
    cases h
    rw [← hledger]
    exact ⟨hreply, hledger', hcache'.trans hcache, haside rfl rfl rfl⟩
  | cache c =>
    simp only [Desk.answer?, Mishap.none_answer] at h
    cases h
    rw [← hcache]
    exact ⟨hreply, hledger'.trans hledger, hcache', haside rfl rfl rfl⟩
  | log entry =>
    cases h
    exact ⟨hreply, hledger'.trans hledger, hcache'.trans hcache, haside rfl rfl rfl⟩
  | _ => cases h

/-- A program that ends at a desk ends in the same way on a stage. -/
theorem run_of_runOn {p : Program α} {d d' : Desk} {a : α} (hcues : s.cues = [])
    (hledger : s.ledger = d.ledger) (hcache : s.cache = d.cache)
    (h : p.runOn (Desk.answer? (fun _ => .none s.uptime) s.clock.now) d = some (a, d')) :
    ∃ s', s.run none p = (.ended a, s') ∧ s'.ledger = d'.ledger ∧ s'.cache = d'.cache ∧
      s.Aside s' := by
  induction p generalizing s d with
  | done b =>
    cases h
    exact ⟨s, rfl, hledger, hcache, hcues, rfl, rfl, rfl, rfl⟩
  | abort => cases h
  | call c next ih =>
    rw [Program.runOn] at h
    obtain ⟨⟨r, e⟩, hr, hrest⟩ := Option.bind_eq_some_iff.1 h
    obtain ⟨hreply, hledger', hcache', haside⟩ := serve_of_answer hcues hledger hcache hr
    -- Neither the uptime nor the clock has moved, so the rest is asked at the same desk.
    rw [← haside.uptime, ← haside.clock] at hrest
    obtain ⟨s', hrun, hledger'', hcache'', haside'⟩ := ih r haside.cues hledger' hcache' hrest
    rw [run_call_calm hcues, hreply]
    exact ⟨s', hrun, hledger'', hcache'', haside'.cues, haside'.clock.trans haside.clock,
      haside'.uptime.trans haside.uptime, haside'.ids.trans haside.ids,
      haside'.reservations.trans haside.reservations⟩

/-! ## Steady stages -/

/-- No cue waits, and the cache, if there is one, works and says nothing untrue of the ledger. -/
structure Steady (stack : Stack) (s : Stage) : Prop where
  cues : s.cues = []
  cache : stack ≠ .plain → Settled s.ledger { ledger := s.ledger, cache := s.cache }

variable {stack : Stack} {c : Call} {r : c.Reply} {d : Tableau}

/-- A request that is made as it is. -/
theorem run_ask_tableau (hcues : s.cues = []) (h : s.tableau.answer? c = some (r, d)) :
    ∃ s', s.run none (.ask c) = (.ended r, s') ∧ s'.tableau = d ∧ s'.cues = [] ∧
      s'.clock = s.clock ∧ s'.cache = s.cache := by
  rcases serve_calm hcues c with ⟨hreply, hscenery, hcues', hclock⟩
  have hanswer : (s.perform c).1 = r ∧ (s.perform c).2.tableau = d ∧
      (s.perform c).2.cache = s.cache := by
    cases c with
    | ledger | reservations | now | freshUuid | log => cases h; exact ⟨rfl, rfl, rfl⟩
    | _ => cases h
  rcases hanswer with ⟨hr, htableau, hcache⟩
  refine ⟨(s.serve c).2, ?_, ?_, hcues', hclock, (congrArg Scenery.cache hscenery).trans hcache⟩
  · rw [Program.ask, run_call_calm hcues, hreply, hr]
    rfl
  · rw [← htableau]
    exact tableau_eq hscenery

/-- Whatever stands before the ledger, a request is answered as the tableau says. -/
theorem Steady.ask (hs : s.Steady stack) (hl : s.ledger.Indexed)
    (hc : ∀ q, c = .ledger q → s.ledger.KeepsProduct q) (h : s.tableau.answer? c = some (r, d)) :
    ∃ s', s.run none (c.through stack.ledger) = (.ended r, s') ∧ s'.tableau = d ∧
      s'.Steady stack ∧ s'.clock = s.clock := by
  cases stack with
  | plain =>
    rcases run_ask_tableau hs.cues h with ⟨s', hrun, htableau, hcues, hclock, -⟩
    refine ⟨s', ?_, htableau, ⟨hcues, fun hstack => absurd rfl hstack⟩, hclock⟩
    cases c <;> exact hrun
  | cached lifetimes =>
    have hsettled := hs.cache (by simp)
    cases c with
    | ledger q =>
      have hsafe : (LedgerAccess.cached lifetimes q).Safe
          (Desk.setting (fun _ => .none s.uptime) s.clock.now)
          (fun r e => r = s.ledger.reply s.clock.now q ∧ Settled (s.ledger.apply s.clock.now q) e)
          { ledger := s.ledger, cache := s.cache } :=
        safe_cached (fun _ => ⟨fun _ => rfl, fun _ => rfl⟩) hl (hc q rfl) hsettled
      rcases hsafe.runOn with ⟨reply, desk, hrun, hreply, hdesk⟩
      rcases run_of_runOn hs.cues rfl rfl hrun with ⟨s', hrun', hledger, hcache, haside⟩
      cases h
      have hledger' := hledger.trans hdesk.ledger
      refine ⟨s', hrun'.trans ?_, ?_, ⟨haside.cues, fun _ => ?_⟩, haside.clock⟩
      · rw [hreply]
        rfl
      · simp only [tableau, haside.clock, haside.ids, haside.reservations, hledger']
      · rw [hledger', hcache]
        exact ⟨rfl, hdesk.online, hdesk.truth⟩
    | reservations | now | freshUuid | log =>
      rcases run_ask_tableau hs.cues h with ⟨s', hrun, htableau, hcues, hclock, hcache⟩
      cases h
      refine ⟨s', hrun, htableau, ⟨hcues, fun _ => ?_⟩, hclock⟩
      have hledger : s'.ledger = s.ledger := congrArg Tableau.ledger htableau
      rw [hledger, hcache]
      exact hsettled
    | _ => cases h

/-- A program does on a stage what it does on the tableau of the stage. -/
theorem Steady.run {allows : Tableau → Call → Prop} {Q : α → Tableau → Prop} {p : Program α}
    (hallows : ∀ d c, allows d c →
      d.ledger.Indexed ∧ ∀ q, c = .ledger q → d.ledger.KeepsProduct q)
    (hs : s.Steady stack) (hp : p.Safe (Tableau.setting allows) Q s.tableau) :
    ∃ o s', s.run none (p.through stack.ledger) = (o, s') ∧
      Progress.value? o = (s.tableau.run p).1 ∧ s'.tableau = (s.tableau.run p).2 ∧
      s'.Steady stack ∧ s'.clock = s.clock := by
  induction p generalizing s with
  | done a => exact ⟨.ended a, s, rfl, rfl, rfl, hs, rfl⟩
  | abort => exact ⟨.broken, s, rfl, rfl, rfl, hs, rfl⟩
  | call c next ih =>
    obtain ⟨⟨hsome, hc⟩, hnext⟩ := hp _ rfl
    obtain ⟨⟨r, d⟩, hr⟩ := Option.isSome_iff_exists.1 hsome
    obtain ⟨s₁, hrun, rfl, hs₁, hclock⟩ := hs.ask (hallows _ _ hc).1 (hallows _ _ hc).2 hr
    obtain ⟨o, s', hrest, hvalue, htableau, hs', hclock'⟩ := ih r hs₁ (hnext r _ hr)
    rw [Program.through, run_andThen_of_ended hrun, Tableau.run_call hr]
    exact ⟨o, s', hrest, hvalue, htableau, hs', hclock'.trans hclock⟩

end Stage
end StockLedger
