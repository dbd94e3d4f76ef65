import Mathlib.Data.List.Basic
import Mathlib.Tactic.Common
import StockLedger.Proofs.Program.Safe
import StockLedger.Rehearsal.Stage

/-!
# Rehearsals in which calls are refused

The cues that wait may have calls refused, before or after they take effect, and do nothing else.
Then every call is answered at once, and what a program comes to is known from what it promises.

* `Cue.OnlyRefuses`, `Stage.Refusing` : such a cue, and a stage on which no other cue waits;
* `Stage.serve`, `Stage.setting` : how a call is answered there;
* `Stage.RefusingOnly` : only calls of one method may be refused;
* `Stage.run_of_safe` : a program that is safe there ends as promised, or breaks off if it may;
* `Stage.Refusing.waiting_serve` : a call takes no cue but its own;
* `Scenery`, `Stage.Refusing.serve_refused`, `Stage.Refusing.serve_made` : what a stage shows after
  a call that is not carried out, and after one that is.
-/

namespace StockLedger

/-- The cue has its call refused, before or after it takes effect, and does nothing else. -/
def Cue.OnlyRefuses (cue : Cue) : Prop :=
  cue = { fail := cue.fail, failAfter := cue.failAfter }

/-- What a stage shows. -/
structure Scenery where
  now : Timestamp
  ids : IdSource
  ledger : MemoryLedger
  reservations : MemoryReservations
  cache : MemoryCache
  uptime : Nat
  log : List LogEntry

namespace Stage

variable {α : Type} {s : Stage} {c : Call} {method method' : String}

def scenery (s : Stage) : Scenery :=
  { now := s.clock.now, ids := s.ids, ledger := s.ledger, reservations := s.reservations
    cache := s.cache, uptime := s.uptime, log := s.log }

/-- No cue that waits does more than to have its call refused. -/
def Refusing (s : Stage) : Prop :=
  ∀ e ∈ s.cues, e.2.OnlyRefuses

/-! ## Cues -/

/-- Is a cue left for this method? -/
def isFor (method : String) (e : String × Cue) : Bool :=
  e.1 == method

/-- The cue that waits for a method. -/
def waiting (s : Stage) (method : String) : Cue :=
  ((s.cues.find? (isFor method)).map Prod.snd).getD {}

theorem takeCue_eq (s : Stage) (method : String) :
    s.takeCue method = (s.waiting method, { s with cues := s.cues.eraseP (isFor method) }) := by
  unfold takeCue
  split
  · next m cue h =>
    have hfind : s.cues.find? (isFor method) = some (m, cue) := h
    rw [waiting, hfind]
    rfl
  · next h =>
    have hfind : s.cues.find? (isFor method) = none := h
    rw [waiting, hfind, List.eraseP_of_forall_not (List.find?_eq_none.1 hfind)]
    rfl

theorem Refusing.onlyRefuses (hs : s.Refusing) (method : String) :
    (s.waiting method).OnlyRefuses := by
  unfold waiting
  cases h : s.cues.find? (isFor method) with
  | some e => exact hs e (List.mem_of_find?_eq_some h)
  | none => rfl

/-- What is taken for one method does not wait for another. -/
theorem find?_eraseP_isFor {cues : List (String × Cue)} (h : method ≠ method') :
    (cues.eraseP (isFor method')).find? (isFor method) = cues.find? (isFor method) := by
  induction cues with
  | nil => rfl
  | cons e rest ih =>
    by_cases he : e.1 = method'
    · have htaken : isFor method' e = true := beq_iff_eq.2 he
      have hother : isFor method e = false := beq_eq_false_iff_ne.2 fun hm => h (hm.symm.trans he)
      simp [htaken, hother]
    · have hkept : isFor method' e = false := beq_eq_false_iff_ne.2 he
      simp [hkept, List.find?_cons, ih]

/-- The cue that waits for a call. -/
def cueOf (s : Stage) (c : Call) : Cue :=
  (c.method?.map s.waiting).getD {}

/-- The cues that are left once a call has taken its own. -/
def cuesAfter (s : Stage) (c : Call) : List (String × Cue) :=
  (c.method?.map fun method => s.cues.eraseP (isFor method)).getD s.cues

/-! ## How calls are answered -/

/-- Carries a call out as the cue that waits for it says. -/
def serve (s : Stage) (c : Call) : c.Reply × Stage :=
  let (cue, s, _) := s.prepare none c
  s.complete cue c

/-- Nobody but the stage is there. -/
abbrev setting (mayBreak : Prop) : Setting Stage :=
  { Setting.alone fun s c => some (serve s c) with mayBreak }

theorem introduce_eq (s : Stage) (c : Call) :
    ∃ items claims, s.introduce c = { s with newItems := items, newReservations := claims } := by
  unfold introduce
  split
  · split <;> exact ⟨_, _, rfl⟩
  · split <;> exact ⟨_, _, rfl⟩
  · exact ⟨_, _, rfl⟩

/-- Before a call nothing happens but that its cue is taken, and perhaps an identity noted. -/
theorem Refusing.prepare (hs : s.Refusing) (c : Call) :
    ∃ items claims, s.prepare none c =
      (s.cueOf c, { s with
        cues := s.cuesAfter c, newItems := items, newReservations := claims }, true) := by
  unfold Stage.prepare cueOf cuesAfter
  cases c.method? with
  | none => exact ⟨_, _, rfl⟩
  | some method =>
    rcases s.introduce_eq c with ⟨items, claims, hintroduce⟩
    refine ⟨items, claims, ?_⟩
    have hcue := hs.onlyRefuses method
    have hwaiting : (s.introduce c).waiting method = s.waiting method := by
      rw [hintroduce]
      rfl
    dsimp only [Option.map_some, Option.getD_some]
    rw [takeCue_eq, hwaiting, hintroduce]
    -- Once the cue is known to do nothing before its call, each of its steps computes away.
    generalize s.waiting method = cue at hcue
    rw [hcue]
    rfl

theorem Refusing.serve_eq (hs : s.Refusing) (c : Call) :
    ∃ items claims, s.serve c =
      ({ s with
        cues := s.cuesAfter c
        newItems := items
        newReservations := claims }).complete (s.cueOf c) c := by
  rcases hs.prepare c with ⟨items, claims, hprepare⟩
  refine ⟨items, claims, ?_⟩
  rw [serve, hprepare]

theorem cues_perform (s : Stage) (c : Call) : (s.perform c).2.cues = s.cues := by
  cases c with
  | publish n =>
    unfold perform announce
    split <;> rfl
  | _ => rfl

/-- A call that is not made changes nothing but the journal. -/
theorem complete_of_refused {cue : Cue} {r : c.Reply}
    (h : (cue.fail.bind fun f => refuse f c) = some r) (s : Stage) :
    s.complete cue c = (r, { s with journal := s.journal ++ (c.line? r).toList }) := by
  rw [complete, h]

theorem complete_of_made {cue : Cue} (h : (cue.fail.bind fun f => refuse f c) = none) (s : Stage) :
    ∃ r, r = cue.failAfter.elim (s.perform c).1 (fun f => refuseAfter f c (s.perform c).1) ∧
      s.complete cue c =
        (r, { (s.perform c).2 with journal := (s.perform c).2.journal ++ (c.line? r).toList }) := by
  refine ⟨_, rfl, ?_⟩
  rw [complete, h]

theorem cues_complete (s : Stage) (cue : Cue) (c : Call) : (s.complete cue c).2.cues = s.cues := by
  cases h : cue.fail.bind fun f => refuse f c with
  | some r => rw [complete_of_refused h]
  | none =>
    rcases complete_of_made h s with ⟨r, -, hcomplete⟩
    rw [hcomplete]
    exact s.cues_perform c

theorem Refusing.cues_serve (hs : s.Refusing) (c : Call) : (s.serve c).2.cues = s.cuesAfter c := by
  rcases hs.serve_eq c with ⟨items, claims, hserve⟩
  rw [hserve, cues_complete]

/-- A call leaves no cues. -/
theorem Refusing.mem_cues (hs : s.Refusing) {e : String × Cue} (he : e ∈ (s.serve c).2.cues) :
    e ∈ s.cues := by
  rw [hs.cues_serve, cuesAfter] at he
  cases hm : c.method? with
  | none =>
    rw [hm] at he
    exact he
  | some method =>
    rw [hm] at he
    exact List.mem_of_mem_eraseP he

theorem Refusing.serve (hs : s.Refusing) (c : Call) : (s.serve c).2.Refusing :=
  fun e he => hs e (hs.mem_cues he)

/-- A call takes no cue but its own. -/
theorem Refusing.waiting_serve (hs : s.Refusing) (h : c.method? ≠ some method) :
    (s.serve c).2.waiting method = s.waiting method := by
  unfold waiting
  rw [hs.cues_serve, cuesAfter]
  cases hc : c.method? with
  | none => rfl
  | some method' =>
    have hne : method ≠ method' := fun hm => h (hc.trans (congrArg some hm.symm))
    rw [Option.map_some, Option.getD_some, find?_eraseP_isFor hne]

/-! ## Calls of one method -/

/-- No cue that waits does more than to have a call of this method refused. -/
def RefusingOnly (method : String) (s : Stage) : Prop :=
  ∀ e ∈ s.cues, e.1 = method ∧ e.2.OnlyRefuses

theorem refusingOnly_of_cues_nil (h : s.cues = []) (method : String) : s.RefusingOnly method := by
  intro e he
  rw [h] at he
  cases he

theorem RefusingOnly.refusing (hs : s.RefusingOnly method) : s.Refusing :=
  fun e he => (hs e he).2

theorem RefusingOnly.serve (hs : s.RefusingOnly method) (c : Call) :
    (s.serve c).2.RefusingOnly method :=
  fun e he => hs e (hs.refusing.mem_cues he)

/-- No cue waits for a call of another method. -/
theorem RefusingOnly.cueOf (hs : s.RefusingOnly method) (hc : c.method? ≠ some method) :
    s.cueOf c = {} := by
  unfold Stage.cueOf waiting
  cases hm : c.method? with
  | none => rfl
  | some method' =>
    have hnone : s.cues.find? (isFor method') = none := by
      refine List.find?_eq_none.2 fun e he hfor => hc ?_
      rw [hm, ← (hs e he).1]
      exact congrArg some (beq_iff_eq.1 hfor).symm
    rw [Option.map_some, Option.getD_some, hnone]
    rfl

/-! ## Programs -/

/-- A call is answered before the program goes on. -/
theorem Refusing.run_call (hs : s.Refusing) (next : c.Reply → Program α) :
    s.run none (.call c next) = (s.serve c).2.run none (next (s.serve c).1) := by
  rcases hs.prepare c with ⟨items, claims, hprepare⟩
  have hhang : (s.cueOf c).hang = false := by
    unfold cueOf
    cases c.method? with
    | none => rfl
    | some method =>
      change (s.waiting method).hang = false
      rw [hs.onlyRefuses method]
  rw [run, Stage.serve, hprepare]
  simp only [hhang, Bool.false_and]
  rfl

/-- A program that is safe ends as promised, or breaks off if it may. -/
theorem run_of_safe {mayBreak : Prop} {Q : α → Stage → Prop} {p : Program α} (hs : s.Refusing)
    (h : p.Safe (setting mayBreak) Q s) :
    (∃ a s', s.run none p = (.ended a, s') ∧ Q a s') ∨
      mayBreak ∧ ∃ s', s.run none p = (.broken, s') := by
  -- The stage is refusing again after each call, so the promise can be followed along the run.
  induction p generalizing s with
  | done a => exact .inl ⟨a, s, rfl, h⟩
  | abort => exact .inr ⟨h, s, rfl⟩
  | call c next ih =>
    have hnext := (h s rfl).2 _ _ rfl
    rw [hs.run_call]
    exact ih _ (hs.serve c) hnext

theorem safe_ask {mayBreak : Prop} {Q : c.Reply → Stage → Prop}
    (h : Q (s.serve c).1 (s.serve c).2) : (Program.ask c).Safe (setting mayBreak) Q s := by
  rintro _ rfl
  refine ⟨rfl, fun r s' hr => ?_⟩
  cases hr
  exact h

/-! ## What a stage shows after a call -/

/-- What was left for other calls and who was noted do not matter to a call. -/
theorem perform_scenery (cues : List (String × Cue)) (items claims : List Uuid) (c : Call) :
    let t := { s with cues, newItems := items, newReservations := claims }
    (t.perform c).1 = (s.perform c).1 ∧ (t.perform c).2.scenery = (s.perform c).2.scenery := by
  cases c with
  | publish n =>
    -- Only what becomes of a notice depends on where notices go.
    simp only [perform, announce]
    split <;> exact ⟨rfl, rfl⟩
  | _ => exact ⟨rfl, rfl⟩

/-- A call that is refused leaves the stage as it is. -/
theorem Refusing.serve_refused (hs : s.Refusing) {f : Fault} {r : c.Reply}
    (h : (s.cueOf c).fail = some f) (hr : refuse f c = some r) :
    (s.serve c).1 = r ∧ (s.serve c).2.scenery = s.scenery := by
  rcases hs.serve_eq c with ⟨items, claims, hserve⟩
  have hrefused : ((s.cueOf c).fail.bind fun f => refuse f c) = some r := by rw [h]; exact hr
  rw [hserve, complete_of_refused hrefused]
  exact ⟨rfl, rfl⟩

/-- A call that is not refused beforehand is carried out, whatever is reported of it. -/
theorem Refusing.serve_made (hs : s.Refusing) (h : (s.cueOf c).fail = none) :
    (s.serve c).1 =
        (s.cueOf c).failAfter.elim (s.perform c).1 (fun f => refuseAfter f c (s.perform c).1) ∧
      (s.serve c).2.scenery = (s.perform c).2.scenery := by
  rcases hs.serve_eq c with ⟨items, claims, hserve⟩
  have hmade : ((s.cueOf c).fail.bind fun f => refuse f c) = none := by rw [h]; rfl
  rcases complete_of_made hmade
    { s with cues := s.cuesAfter c, newItems := items, newReservations := claims }
    with ⟨r, hr, hcomplete⟩
  rcases perform_scenery (s := s) (s.cuesAfter c) items claims c with ⟨hreply, hscenery⟩
  rw [hserve, hcomplete]
  rw [hreply] at hr
  exact ⟨hr, hscenery⟩

/-- Without a cue a call is carried out and its reply arrives. -/
theorem Refusing.serve_quiet (hs : s.Refusing) (h : s.cueOf c = {}) :
    (s.serve c).1 = (s.perform c).1 ∧ (s.serve c).2.scenery = (s.perform c).2.scenery := by
  rcases hs.serve_made (c := c) (by rw [h]) with ⟨hreply, hscenery⟩
  rw [h] at hreply
  exact ⟨hreply, hscenery⟩

theorem cueOf_of_cues_nil (h : s.cues = []) (c : Call) : s.cueOf c = {} := by
  unfold cueOf waiting
  rw [h]
  cases c.method? <;> rfl

/-- Where no cue waits, every call is carried out and its reply arrives. -/
theorem serve_of_cues_nil (h : s.cues = []) (c : Call) :
    (s.serve c).1 = (s.perform c).1 ∧ (s.serve c).2.scenery = (s.perform c).2.scenery ∧
      (s.serve c).2.cues = [] := by
  have hs : s.Refusing := (refusingOnly_of_cues_nil h "").refusing
  rcases hs.serve_quiet (cueOf_of_cues_nil h c) with ⟨hreply, hscenery⟩
  refine ⟨hreply, hscenery, List.eq_nil_iff_forall_not_mem.2 fun e he => ?_⟩
  have hmem := hs.mem_cues he
  rw [h] at hmem
  cases hmem

theorem run_ask_of_cues_nil (h : s.cues = []) (c : Call) :
    ∃ s', s.run none (.ask c) = (.ended (s.perform c).1, s') ∧
      s'.scenery = (s.perform c).2.scenery ∧ s'.cues = [] := by
  have hs : s.Refusing := (refusingOnly_of_cues_nil h "").refusing
  rcases serve_of_cues_nil h c with ⟨hreply, hscenery, hcues⟩
  refine ⟨(s.serve c).2, ?_, hscenery, hcues⟩
  rw [← hreply]
  exact hs.run_call _

end Stage
end StockLedger
