import Mathlib
import StockLedger.Proofs.Service.Errands

/-!
# Products are isolated

What happens to other products leaves no trace in what is said and stored about a product, with a
cache before the ledger or without one.

* `Act`, `Stage.meet`, `Stage.play` : errands and moves of the clock, one after another;
* `Realm.about` : the acts that matter to a realm;
* `Realm.Alike` : two stages with the same time and the same rows of a realm;
* `Realm.Alike.meet_about`, `Realm.Alike.meet_others` : a step of both stages, and of one alone;
* `Realm.isolated` : with all other errands left out, a realm is answered in the same way and its
  rows are the same.
-/

namespace StockLedger

/-! ## Acts -/

/-- An errand, with the source of what it stores for the first time, or a move of the clock. -/
inductive Act
  | errand (ids : IdSource) (t : Errand)
  | advance (by_ : Span)
  | set (now : Timestamp)

/-- An errand is answered, unless it breaks off. -/
abbrev Act.Outcome : Act → Type
  | errand _ t => Option (Answer t.Value)
  | advance _ | set _ => Unit

/-- An act and what it came to. -/
structure Played where
  act : Act
  outcome : act.Outcome

namespace Stage

/-- An act on a stage, once the machine has run for so long. -/
def meet (stack : Stack) (ttl : Span) (uptime : Nat) (s : Stage) : (a : Act) → a.Outcome × Stage
  | .errand ids t =>
      let (progress, s') :=
        { s with ids, uptime }.run none (t.request (.behind stack.ledger ttl)).run
      (Progress.value? progress, s')
  | .advance d => ((), (s.shiftClock d).getD s.jamClock)
  | .set t => ((), { s with clock := s.clock.set t })

/-- Acts one after another, each at its uptime. -/
def play (stack : Stack) (ttl : Span) : (Nat → Nat) → List Act → Stage → List Played × Stage
  | _, [], s => ([], s)
  | uptimes, a :: rest, s =>
      let (outcome, s) := s.meet stack ttl (uptimes 0) a
      let (played, s) := s.play stack ttl (fun n => uptimes (n + 1)) rest
      (⟨a, outcome⟩ :: played, s)

/-- A clock that is moved too far jams. -/
theorem shiftClock_getD (s : Stage) (d : Span) :
    (s.shiftClock d).getD s.jamClock =
      { s with clock := (s.clock.advance? d).getD s.clock.jam } := by
  unfold shiftClock
  cases s.clock.advance? d <;> rfl

end Stage

namespace Realm

variable {R : Realm} {stack stack' : Stack} {ttl : Span} {s s' t t' : Stage} {a : Act}
  {uptime uptime' : Nat}

/-- The act is an errand of the realm, or it moves the clock. -/
def about (R : Realm) : Act → Bool
  | .errand ids t => R.concerns ids t
  | .advance _ | .set _ => true

/-! ## Errands on a stage -/

/-- No cue waits, the cache tells the truth, and no row belongs to two realms. -/
structure Stands (R : Realm) (stack : Stack) (s : Stage) : Prop where
  steady : s.Steady stack
  ordered : R.Ordered s.tableau

theorem Stands.init (hcues : s.cues = []) (hcache : s.cache = .empty)
    (hordered : R.Ordered s.tableau) : R.Stands stack s := by
  refine ⟨⟨hcues, fun _ => ?_⟩, hordered⟩
  rw [hcache]
  exact ⟨rfl, rfl, fun _ _ ha => nomatch ha⟩

theorem Ordered.withIds {d : Tableau} (h : R.Ordered d) (ids : IdSource) :
    R.Ordered { d with ids } :=
  ⟨h.indexed, h.keyed, h.item, h.claim, h.order⟩

theorem Stands.withClock (h : R.Stands stack s) (clock : Clock) :
    R.Stands stack { s with clock } where
  steady := ⟨h.steady.cues, h.steady.cache⟩
  ordered := ⟨h.ordered.indexed, h.ordered.keyed, h.ordered.item, h.ordered.claim, h.ordered.order⟩

theorem Stands.others (h : R.Stands stack s) : R.others.Stands stack s :=
  ⟨h.steady, h.ordered.others⟩

/-- An errand of the realm does on a stage what it does on its tableau. -/
theorem Stands.errand {ids : IdSource} {q : Errand} (h : R.Stands stack s)
    (hq : R.concerns ids q = true) (ttl : Span) (uptime : Nat) :
    let run := Tableau.run (q.request (.direct ttl)).run { s.tableau with ids }
    let met := s.meet stack ttl uptime (.errand ids q)
    met.1 = run.1 ∧ met.2.tableau = run.2 ∧ met.2.clock = s.clock ∧ R.Stands stack met.2 := by
  have hstart : R.Stands stack { s with ids, uptime } :=
    ⟨⟨h.steady.cues, h.steady.cache⟩, h.ordered.withIds ids⟩
  have hsafe : (q.request (.direct ttl)).Safe R.setting (fun _ _ => True)
      { s.tableau with ids } := safe_errand hstart.ordered hq ttl
  have hthrough : (q.request (.direct ttl)).run.through stack.ledger =
      (q.request (.behind stack.ledger ttl)).run :=
    congrArg ExceptT.run q.through_request
  obtain ⟨o, s', hrun, hvalue, htableau, hsteady', hclock⟩ :=
    hstart.steady.run (fun d c hc => ⟨hc.1.indexed, fun q hq => (hq ▸ hc.2).keepsProduct⟩) hsafe
  rw [hthrough] at hrun
  have hordered' : R.Ordered s'.tableau := htableau ▸ ordered_run hstart.ordered hsafe
  simp only [Stage.meet, hrun]
  exact ⟨hvalue, htableau, hclock, hsteady', hordered'⟩

/-! ## Two stages -/

/-- Two stages with the same time and the same rows of the realm, each behind its own stack. -/
structure Alike (R : Realm) (stack stack' : Stack) (s t : Stage) : Prop where
  left : R.Stands stack s
  right : R.Stands stack' t
  clock : s.clock = t.clock
  same : R.Same s.tableau t.tableau

theorem Alike.withClock (h : R.Alike stack stack' s t) (clock : Clock) :
    R.Alike stack stack' { s with clock } { t with clock } :=
  ⟨h.left.withClock _, h.right.withClock _, rfl, h.same.item, h.same.lead, h.same.claim,
    h.same.order⟩

/-- What is about the realm comes to the same on both stages. -/
theorem Alike.meet_about (h : R.Alike stack stack' s t) (ha : R.about a = true) :
    (s.meet stack ttl uptime a).1 = (t.meet stack' ttl uptime' a).1 ∧
      R.Alike stack stack' (s.meet stack ttl uptime a).2 (t.meet stack' ttl uptime' a).2 := by
  cases a with
  | advance d =>
    refine ⟨rfl, ?_⟩
    simp only [Stage.meet, Stage.shiftClock_getD, h.clock]
    exact h.withClock _
  | set now =>
    refine ⟨rfl, ?_⟩
    simp only [Stage.meet, h.clock]
    exact h.withClock _
  | errand ids q =>
    obtain ⟨hvalue, htableau, hclock, hstands⟩ := h.left.errand ha ttl uptime
    obtain ⟨hvalue', htableau', hclock', hstands'⟩ := h.right.errand ha ttl uptime'
    have habreast : R.Abreast { s.tableau with ids } { t.tableau with ids } :=
      ⟨⟨h.same.item, h.same.lead, h.same.claim, h.same.order⟩, congrArg Clock.now h.clock, rfl⟩
    have hordered := h.left.ordered.withIds ids
    obtain ⟨hsame, hafter⟩ := habreast.run (safe_errand hordered ha ttl)
    refine ⟨hvalue.trans (hsame.trans hvalue'.symm), hstands, hstands', ?_, ?_⟩
    · exact hclock.trans (h.clock.trans hclock'.symm)
    · rw [htableau, htableau']
      exact hafter.toSame

/-- An errand for the other products leaves the stages alike. -/
theorem Alike.meet_others (h : R.Alike stack stack' s t) (ha : R.others.about a = true)
    (hne : R.about a = false) : R.Alike stack stack' (s.meet stack ttl uptime a).2 t := by
  cases a with
  | advance | set => cases hne
  | errand ids q =>
    obtain ⟨-, htableau, hclock, hstands⟩ := h.left.others.errand ha ttl uptime
    -- Seen from the other products it is their own errand, and this realm is one of the others.
    have hback := hstands.others
    rw [others_others] at hback
    have hsame := same_run (safe_errand (h.left.others.ordered.withIds ids) ha ttl)
    rw [← htableau] at hsame
    have hleft : R.Same s.tableau (s.meet stack ttl uptime (.errand ids q)).2.tableau :=
      ⟨hsame.item, hsame.lead, hsame.claim, hsame.order⟩
    exact ⟨hback, h.right, hclock.trans h.clock, hleft.symm.trans h.same⟩

theorem Alike.play {acts : List Act} {uptimes uptimes' : Nat → Nat} (h : R.Alike stack stack' s t)
    (hsplit : ∀ a ∈ acts, R.about a = true ∨ R.others.about a = true) :
    (t.play stack' ttl uptimes' (acts.filter R.about)).1 =
        (s.play stack ttl uptimes acts).1.filter (fun x => R.about x.act) ∧
      R.Alike stack stack' (s.play stack ttl uptimes acts).2
        (t.play stack' ttl uptimes' (acts.filter R.about)).2 := by
  induction acts generalizing s t uptimes uptimes' with
  | nil => exact ⟨rfl, h⟩
  | cons a rest ih =>
    have hrest := fun b hb => hsplit b (List.mem_cons_of_mem a hb)
    cases ha : R.about a with
    | true =>
      rcases h.meet_about ha with ⟨houtcome, halike⟩
      rcases ih halike hrest with ⟨hplayed, hend⟩
      rw [List.filter_cons_of_pos ha]
      simp only [Stage.play]
      refine ⟨?_, hend⟩
      rw [hplayed, houtcome]
      exact (List.filter_cons_of_pos (p := fun x : Played => R.about x.act) ha).symm
    | false =>
      have hothers := (hsplit a List.mem_cons_self).resolve_left (by simp [ha])
      rcases ih (h.meet_others hothers ha) hrest with ⟨hplayed, hend⟩
      have hno : ¬ R.about a = true := by simp [ha]
      rw [List.filter_cons_of_neg hno]
      simp only [Stage.play]
      refine ⟨?_, hend⟩
      rw [hplayed]
      exact (List.filter_cons_of_neg (p := fun x : Played => R.about x.act) hno).symm

/-! ## Isolation -/

/-- Where nothing is stored, no row belongs to two realms. -/
theorem ordered_empty (R : Realm) (now : Timestamp) (ids : IdSource) :
    R.Ordered { now, ids, ledger := .empty, reservations := .empty } where
  indexed := MemoryLedger.indexed_empty
  keyed := MemoryReservations.keyed_empty
  item _ _ h := nomatch h
  claim _ _ h := nomatch h
  order _ _ h := nomatch h

/--
Errands and moves of the clock come one after another, and each errand is about the realm or about
the other products. With all errands for the other products left out, every other act comes to the
same, and the items and the claims of the realm are stored in the same way. The rows at the start
may be any that belong to one realm each; a cache, if there is one, starts out empty. When each
act happens by the clock of the machine does not matter in either run.
-/
theorem isolated (stack : Stack) (ttl : Span) (R : Realm) (start : Stage)
    (hcues : start.cues = []) (hcache : start.cache = .empty) (hordered : R.Ordered start.tableau)
    (acts : List Act)
    (hsplit : ∀ a ∈ acts, R.about a = true ∨ R.others.about a = true)
    (uptimes uptimes' : Nat → Nat) :
    let all := start.play stack ttl uptimes acts
    let alone := start.play stack ttl uptimes' (acts.filter R.about)
    alone.1 = all.1.filter (fun x => R.about x.act) ∧ R.Same all.2.tableau alone.2.tableau := by
  have hstands : R.Stands stack start := .init hcues hcache hordered
  have halike : R.Alike stack stack start start := ⟨hstands, hstands, rfl, .refl R _⟩
  rcases halike.play hsplit with ⟨hplayed, hend⟩
  exact ⟨hplayed, hend.same⟩

namespace Neighbours

/-- The identities that are made in a millisecond. -/
def source (millis : Nat) : IdSource := { millis }

/-- One product with its item, its order and its claim. -/
def realm : Realm where
  products p := p == ⟨.ofNat 1⟩
  items i := i == ⟨(source 1).next.1⟩
  orders o := o == ⟨.ofNat 11⟩
  claims i := i == ⟨(source 3).next.1⟩

/-- Two products are stocked and claimed, and half an hour later one is looked at. -/
def acts : List Act :=
  [.errand (source 1) (.work (.createItem ⟨.ofNat 1⟩ 10)),
    .errand (source 2) (.work (.createItem ⟨.ofNat 2⟩ 5)),
    .errand (source 3) (.work (.reserve ⟨.ofNat 1⟩ ⟨.ofNat 11⟩ 4 none)),
    .errand (source 4) (.work (.reserve ⟨.ofNat 2⟩ ⟨.ofNat 12⟩ 5 none)),
    .advance (.ofMillis 1800000),
    .errand (source 5) (.work (.release ⟨(source 4).next.1⟩)),
    .errand (source 6) (.availability ⟨.ofNat 1⟩)]

/-- A stage on which nothing has happened yet. -/
def start : Stage :=
  { clock := { now := .epoch }, ids := source 0 }

/-- The item of the product as it is made. -/
def item : StockItem :=
  { StockItem.ten 1 with id := ⟨(source 1).next.1⟩ }

/-- What is said about the product. -/
def told : List Played :=
  [⟨.errand (source 1) (.work (.createItem item.productId 10)), some (.ok item)⟩,
    ⟨.errand (source 3) (.work (.reserve item.productId ⟨.ofNat 11⟩ 4 none)),
      some (.ok { reservationId := ⟨(source 3).next.1⟩, available := 6
                  expiresAt := (Reservation.four 1).expiresAt })⟩,
    ⟨.advance (.ofMillis 1800000), ()⟩,
    ⟨.errand (source 6) (.availability item.productId),
      some (.ok { itemId := item.id, productId := item.productId, quantity := 10, reserved := 4
                  available := 6, version := 2 })⟩]

/-- What is said about the product when nothing else happens and there is no cache. -/
theorem told_alone :
    (start.play .plain Reservation.defaultTtl (fun n => n) (acts.filter realm.about)).1 = told := by
  cbv

end Neighbours

open Neighbours in
/-- One of two products, with a cache before the ledger. -/
theorem isolated_neighbours :
    let all := start.play (.cached {}) Reservation.defaultTtl (fun n => n) acts
    let alone := start.play (.cached {}) Reservation.defaultTtl (fun n => 2 * n)
      (acts.filter realm.about)
    (∀ a ∈ acts, realm.about a = true ∨ realm.others.about a = true) ∧
    alone.1 = all.1.filter (fun x => realm.about x.act) ∧
    all.1.filter (fun x => realm.about x.act) = told ∧
    realm.Same all.2.tableau alone.2.tableau := by
  have hsplit : ∀ a ∈ acts, realm.about a = true ∨ realm.others.about a = true := by
    decide +kernel
  have hisolated := isolated (.cached {}) Reservation.defaultTtl realm start rfl rfl
    (ordered_empty _ _ _) acts hsplit (fun n => n) fun n => 2 * n
  -- Behind the cache nothing else is said than without one.
  have hstands (stack : Stack) : realm.Stands stack start :=
    .init rfl rfl (ordered_empty _ _ _)
  have halike : realm.Alike (.cached {}) .plain start start :=
    ⟨hstands _, hstands _, rfl, .refl _ _⟩
  have htold : told = (start.play (.cached {}) Reservation.defaultTtl (fun n => n) acts).1.filter
      (fun x => realm.about x.act) := told_alone.symm.trans (halike.play hsplit).1
  exact ⟨hsplit, hisolated.1, htold.symm, hisolated.2⟩

end Realm
end StockLedger
