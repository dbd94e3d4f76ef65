import Mathlib.Tactic.Common
import StockLedger.Proofs.Concurrent.History
import StockLedger.Proofs.Program.Safe

/-!
# What all programs keep to

If every program of a kind keeps to the conduct that is expected of it, whatever the others do,
then all of them together do.

* `Conduct` : the requests that a program may make, and what it promises about its outcome;
* `Conduct.setting` : such a program among others, who may do whatever keeps the world in order;
* `Conduct.Upheld` : each program keeps to the conduct, which in turn keeps the world in order;
* `Conduct.Kept` : the world is in order, and so is everything that is under way;
* `Conduct.Kept.step`, `Conduct.Kept.reaches` : one step, and any number of them;
* `Conduct.Kept.invariant` : what one step preserves of such systems, any number of them does.
-/

namespace StockLedger

/-- What is expected of the programs of a kind. -/
structure Conduct (J : Job) where
  ledger : J.Task → Record → World → LedgerCall → Prop
  reservations : J.Task → Record → ReservationCall → Prop
  promise : (t : J.Task) → J.Outcome t → Record → World → Prop

namespace Conduct

variable {J : Job} {C : Conduct J} {inv : World → Prop} {R : Rules J}

/-- May a program with this record make this request? None announces anything or sweeps. -/
def allows (C : Conduct J) (t : J.Task) (k : Record) (w : World) : Call → Prop
  | .ledger c => C.ledger t k w c
  | .reservations c => C.reservations t k c
  | .cache c => w.MayCache c
  | .now | .uptime | .freshUuid | .log _ => True
  | .publish _ | .findExpiredWithin _ _ _ | .enterSweep | .leaveSweep | .recordSweep _
  | .recordSkip => False

/-- The record is the same, and the world is in order and has forgotten nothing. -/
structure Later (inv : World → Prop) (s s' : Record × World) : Prop where
  record : s'.1 = s.1
  world : s'.2.Extends s.2
  order : inv s'.2

theorem Later.refl {s : Record × World} (h : inv s.2) : Later inv s s :=
  ⟨rfl, .refl _, h⟩

theorem Later.trans {s s' s'' : Record × World} (h : Later inv s s') (h' : Later inv s' s'') :
    Later inv s s'' :=
  ⟨h'.record.trans h.record, h'.world.trans h.world, h'.order⟩

/-- A program among others, who keep the world in order. -/
def setting (C : Conduct J) (inv : World → Prop) (t : J.Task) : Setting (Record × World) where
  drifts := Later inv
  allows s c := C.allows t s.1 s.2 c
  mayBreak := True
  answers c s r s' := ∃ served, s.2.Serves c served s'.2 ∧ c.Reports served r ∧
    s'.1 = s.1.note c r served ∧ inv s'.2

/-- A program that keeps to the conduct. -/
abbrev Safe (C : Conduct J) (inv : World → Prop) (t : J.Task) (p : Program (J.Outcome t))
    (s : Record × World) : Prop :=
  p.Safe (C.setting inv t) (fun a s => C.promise t a s.1 s.2) s

/-- Each program keeps to the conduct, which in turn keeps the world in order. -/
structure Upheld (C : Conduct J) (inv : World → Prop) (R : Rules J) : Prop where
  starts : ∀ {σ : System J} {t}, inv σ.world → R.starts σ t →
    C.Safe inv t (J.program t) (J.opening t, σ.world)
  serves : ∀ {w w' others t k c served r}, inv w → C.allows t k w c → w.Serves c served w' →
    c.Reports served r → R.serves w others c served r w' → inv w'
  lasts : ∀ {t a k} {w w' : World}, w'.Extends w → C.promise t a k w → C.promise t a k w'

/-- The world is in order, and every program under way keeps to the conduct. -/
structure Kept (C : Conduct J) (inv : World → Prop) (σ : System J) : Prop where
  world : inv σ.world
  runs : ∀ run ∈ σ.runs, C.Safe inv run.task run.rest (run.record, σ.world)

theorem Upheld.drift (hC : C.Upheld inv R) {t : J.Task} {p : Program (J.Outcome t)} {k : Record}
    {w w' : World} (hextends : w'.Extends w) (hw' : inv w') (h : C.Safe inv t p (k, w)) :
    C.Safe inv t p (k, w') := by
  have hdrift : (C.setting inv t).drifts (k, w) (k, w') := ⟨rfl, hextends, hw'⟩
  refine Program.Safe.drift Later.trans (fun a s s' h hp => ?_) hdrift h
  rw [h.record]
  exact hC.lasts h.world hp

theorem Kept.allows {σ : System J} (h : C.Kept inv σ) {run : Run J} (hrun : run ∈ σ.runs)
    {c : Call} {next : c.Reply → Program (J.Outcome run.task)} (hrest : run.rest = .call c next) :
    C.allows run.task run.record σ.world c := by
  have hsafe := h.runs run hrun
  rw [hrest] at hsafe
  exact (hsafe (run.record, σ.world) (.refl h.world)).1

theorem Kept.step (hC : C.Upheld inv R) {σ σ' : System J} (h : C.Kept inv σ)
    (hstep : System.Step R σ σ') : C.Kept inv σ' := by
  cases hstep with
  | start _ task hstart =>
    refine ⟨h.world, fun run hrun => ?_⟩
    rcases List.mem_append.1 hrun with hold | hnew
    · exact h.runs run hold
    · rcases List.mem_singleton.1 hnew with rfl
      have hsafe : C.Safe inv task (J.program task) (J.opening task, σ.world) :=
        hC.starts h.world hstart
      exact hsafe
  | abandon w before after run =>
    refine ⟨h.world, fun other hother => ?_⟩
    rcases Run.eq_or_mem_others hother with rfl | hothers
    · -- Who has broken off makes no request any more.
      exact trivial
    · exact h.runs other (Run.mem_of_others run hothers)
  | answer w w' before after run c next served r hrest hserves hreports hrules =>
    have hmem : run ∈ before ++ run :: after := Run.mem_self ..
    have hallows := h.allows hmem hrest
    have hw' : inv w' := hC.serves h.world hallows hserves hreports hrules
    refine ⟨hw', fun other hother => ?_⟩
    rcases Run.eq_or_mem_others hother with rfl | hothers
    · -- The program itself goes on with the reply.
      have hsafe := h.runs run hmem
      rw [hrest] at hsafe
      exact (hsafe (run.record, w) (.refl h.world)).2 r _ ⟨served, hserves, hreports, rfl, hw'⟩
    · -- To all others the request is part of what happens around them.
      exact hC.drift hserves.extends hw' (h.runs other (Run.mem_of_others run hothers))

theorem Kept.reaches (hC : C.Upheld inv R) {σ σ' : System J} (h : C.Kept inv σ)
    (hreaches : System.Reaches R σ σ') : C.Kept inv σ' := by
  induction hreaches with
  | refl => exact h
  | tail _ hstep ih => exact ih.step hC hstep

/-- What one step preserves of systems in order, any number of steps preserves. -/
theorem Kept.invariant (hC : C.Upheld inv R) {P : System J → Prop} {σ σ' : System J}
    (h : C.Kept inv σ) (hreaches : System.Reaches R σ σ') (hP : P σ)
    (hstep : ∀ {τ τ'}, C.Kept inv τ → System.Step R τ τ' → P τ → P τ') : P σ' := by
  induction hreaches with
  | refl => exact hP
  | tail hbefore hlast ih => exact hstep (h.reaches hC hbefore) hlast ih

end Conduct
end StockLedger
