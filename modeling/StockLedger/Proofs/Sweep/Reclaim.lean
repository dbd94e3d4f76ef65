import Mathlib.Tactic.Common
import StockLedger.Proofs.Memory.Backlog
import StockLedger.Proofs.Rehearsal.Verdicts
import StockLedger.Sweep.Basic

/-!
# Undisturbed sweeps

What a sweep does if nothing interferes with it and no request fails.

* `StockItem.GaveBack` : an item after units of some claims were given back;
* `Scene.settles`, `settle_overdue`, `settle_refused` : can an overdue claim be released?
* `Scene.reclaim` : one claim after another is released if it can be;
* `safe_releaseAll`, `safe_trigger` : that is what a sweep does with the oldest overdue claims, until
  its budget is spent.
-/

namespace StockLedger

open Sweeper

/-! ## Items -/

/-- An item after so many units, of so many claims, were given back. Each claim counts as a version. -/
structure StockItem.GaveBack (x y : StockItem) (units : Int) (claims : Nat) (now : Timestamp) :
    Prop where
  id : y.id = x.id
  productId : y.productId = x.productId
  quantity : y.quantity = x.quantity
  reserved : y.reserved = x.reserved - units
  version : y.version.toNat = (x.version.toNat + claims) % UInt64.size
  createdAt : y.createdAt = x.createdAt
  updatedAt : y.updatedAt = if claims = 0 then x.updatedAt else now

section

variable {x y : StockItem} {units : Int} {claims : Nat} {now : Timestamp}

/-- That is an item that is relieved while nothing leaves the stock. -/
theorem StockItem.gaveBack_iff :
    x.GaveBack y units claims now ↔ x.Relieved y 0 units claims now where
  mp h := ⟨h.id, h.productId, h.quantity.trans (Int.sub_zero _).symm, h.reserved, h.version,
    h.createdAt, h.updatedAt⟩
  mpr h := ⟨h.id, h.productId, h.quantity.trans (Int.sub_zero _), h.reserved, h.version,
    h.createdAt, h.updatedAt⟩

end

/-! ## One claim -/

namespace Scene

/-- Are enough units reserved on the item of the claim? -/
def settles (m : Scene) (r : Reservation) : Bool :=
  (m.ledger.items.find? r.itemId).any fun x => r.quantity ≤ x.reserved

/-- The claims are overdue, and all different. -/
structure Awaits (m : Scene) (rs : List Reservation) : Prop where
  keyed : m.ledger.Keyed
  distinct : rs.Pairwise fun a b => a.id ≠ b.id
  overdue : ∀ r ∈ rs, m.reservations.rows.find? r.id = some r ∧ r.status = .pending ∧
    r.expiresAt < m.now

/-- The scene after the units of an overdue claim were given back, which leaves this item. -/
def expire (m : Scene) (r : Reservation) (y : StockItem) : Scene :=
  (m.putItem y).putClaim (r.moveTo .expired m.now)

variable {m : Scene} {r : Reservation} {rest : List Reservation}

theorem settles_iff : m.settles r = true ↔
    ∃ x, m.ledger.items.find? r.itemId = some x ∧ r.quantity ≤ x.reserved := by
  simp [settles, Option.any_eq_true]

/-- An overdue claim is released if its units are reserved. -/
theorem settle_overdue (h : m.Awaits (r :: rest)) (hsettles : m.settles r = true) :
    ∃ x y, m.ledger.items.find? r.itemId = some x ∧ x.GaveBack y r.quantity 1 m.now ∧
      m.settle .expire r = .ok ((r.moveTo .expired m.now, y), m.expire r y) := by
  rcases settles_iff.1 hsettles with ⟨x, hx, hreserved⟩
  rcases h.overdue r (List.mem_cons_self ..) with ⟨hrow, hpending, hexpired⟩
  have hready : m.Ready [⟨r, .expire⟩] := .single h.keyed hrow ⟨hpending, hexpired⟩ hx hreserved
  rcases hready.settle with ⟨x, y, hx, hrelieved, hok⟩
  exact ⟨x, y, hx, StockItem.gaveBack_iff.2 hrelieved, hok⟩

/-- Otherwise its item is missing, or has too few units reserved. -/
theorem settle_refused (h : m.settles r = false) : ∃ f, m.settle .expire r = .error f := by
  have hshort : ¬ ∃ x, m.ledger.items.find? r.itemId = some x ∧ r.quantity ≤ x.reserved := by
    rw [← settles_iff, h]
    exact Bool.false_ne_true
  cases hx : m.ledger.items.find? r.itemId with
  | none =>
    have hload : m.ledger.load r.itemId = .error (.itemNotFound (MemoryLedger.aboutItem r.itemId)) := by
      rw [MemoryLedger.load, hx]
    refine ⟨.itemNotFound (MemoryLedger.aboutItem r.itemId), ?_⟩
    rw [settle, hload]
    rfl
  | some x =>
    have hload : m.ledger.load r.itemId = .ok x := by rw [MemoryLedger.load, hx]
    have hreserved : ¬ r.quantity ≤ x.reserved := fun hle => hshort ⟨x, hx, hle⟩
    have hchange : x.apply Settlement.expire.change r.quantity =
        .error (.invalidRelease r.quantity x.reserved) := by
      change x.release r.quantity = _
      rw [StockItem.release, dif_pos r.quantity_range.1, dif_neg hreserved]
    refine ⟨.invalidRelease r.quantity x.reserved, ?_⟩
    rw [settle, hload]
    simp only [bind, Except.bind, hchange]
    rfl

/-- The other claims are still overdue. -/
theorem Awaits.expire (h : m.Awaits (r :: rest)) (y : StockItem) : (m.expire r y).Awaits rest := by
  have hdistinct := List.pairwise_cons.1 h.distinct
  refine ⟨?_, hdistinct.2, fun a ha => ?_⟩
  · intro id z hz
    rcases Table.of_find?_insert hz with ⟨rfl, rfl⟩ | ⟨-, hold⟩
    · rfl
    · exact h.keyed id z hold
  · rcases h.overdue a (List.mem_cons_of_mem r ha) with ⟨hrow, hoverdue⟩
    have hne : a.id ≠ (r.moveTo .expired m.now).id := (hdistinct.1 a ha).symm
    refine ⟨?_, hoverdue⟩
    exact (Table.find?_insert ..).trans ((if_neg hne).trans hrow)

theorem Awaits.tail (h : m.Awaits (r :: rest)) : m.Awaits rest where
  keyed := h.keyed
  distinct := (List.pairwise_cons.1 h.distinct).2
  overdue := fun a ha => h.overdue a (List.mem_cons_of_mem r ha)

theorem Awaits.left {rs : List Reservation} (h : m.Awaits (rs ++ rest)) : m.Awaits rs where
  keyed := h.keyed
  distinct := (List.pairwise_append.1 h.distinct).1
  overdue := fun a ha => h.overdue a (List.mem_append_left rest ha)

theorem awaits_backlog (hkeyed : m.ledger.Keyed)
    (h : m.reservations.Backlog m.now rest) : m.Awaits rest where
  keyed := hkeyed
  distinct := h.distinct
  overdue := fun a ha => (h.mem_iff a).1 ha

/-- Whether a sweep runs makes no difference to the claims. -/
theorem Awaits.sweeping (h : m.Awaits rest) (b : Bool) : { m with sweeping := b }.Awaits rest where
  keyed := h.keyed
  distinct := h.distinct
  overdue := h.overdue

/-! ## Many claims -/

/-- Gives back the units of one claim after another, as far as that is possible. -/
def reclaim (m : Scene) : List Reservation → SweepSummary → SweepSummary × Scene
  | [], summary => (summary, m)
  | r :: rest, summary =>
      match m.settle .expire r with
      | .ok (_, m') => m'.reclaim rest (summary.addReleased r.id)
      | .error f => m.reclaim rest (summary.addFailure r.id f)

theorem reclaim_released {p : Reservation × StockItem} {m' : Scene}
    (h : m.settle .expire r = .ok (p, m')) (summary : SweepSummary) :
    m.reclaim (r :: rest) summary = m'.reclaim rest (summary.addReleased r.id) := by
  rw [reclaim, h]

theorem reclaim_refused {f : Fault} (h : m.settle .expire r = .error f) (summary : SweepSummary) :
    m.reclaim (r :: rest) summary = m.reclaim rest (summary.addFailure r.id f) := by
  rw [reclaim, h]

end Scene

/-! ## Sweeps -/

/--
Some first claims were released as far as possible. The others were deferred, but not if the budget
has no end.
-/
def Rehearsal.Reclaimed (stack : Stack) (since : Nat) (m : Scene) (deadline : Option Int)
    (rs : List Reservation) (start out : SweepSummary) (s : Rehearsal) : Prop :=
  ∃ n ≤ rs.length, (deadline = none → n = rs.length) ∧
    out = (m.reclaim (rs.take n) start).1.addDeferred ((rs.drop n).map Reservation.id) ∧
    s.Stands stack since (m.reclaim (rs.take n) start).2

section

variable {stack : Stack} {since : Nat} {uptimes : Nat → Nat} {m : Scene} {s : Rehearsal}
  {w : Sweeper} {deadline : Option Int} {rs : List Reservation}

theorem shows_budgetSpent (hs : s.Stands stack since m) :
    (budgetSpent deadline).Safe (Rehearsal.setting uptimes)
      (fun spent s' => (deadline = none → spent = false) ∧ s'.Stands stack since m) s := by
  cases deadline with
  | none => exact ⟨fun _ => rfl, hs⟩
  | some d =>
    have huptime : (Program.ask .uptime).Safe (Rehearsal.setting uptimes)
        (fun _ s' => s'.Stands stack since m) s := safe_ask_alone ⟨hs.scene, hs.cache⟩
    refine huptime.bind fun u s' hs' => ?_
    exact ⟨fun h => (nomatch h), hs'⟩

theorem announce_scene (stage : Stage) (n : StockRelease) :
    (stage.announce n).2.scene = stage.scene ∧ (stage.announce n).2.cache = stage.cache := by
  unfold Stage.announce
  split <;> exact ⟨rfl, rfl⟩

theorem shows_announce {r : Reservation} {x : StockItem} (hs : s.Stands stack since m) :
    (announce r x).Safe (Rehearsal.setting uptimes) (fun _ s' => s'.Stands stack since m) s := by
  have hpublish (n : StockRelease) : (Program.ask (.publish n)).Safe (Rehearsal.setting uptimes)
      (fun _ s' => s'.Stands stack since m) s := by
    rcases announce_scene { s.stage with uptime := uptimes s.asked } n with ⟨hscene, hcache⟩
    refine safe_ask_alone ⟨hscene.trans hs.scene, ?_⟩
    have hsame : (s.perform uptimes (.publish n)).2.stage.cache = s.stage.cache := hcache
    rw [hsame]
    exact hs.cache
  refine (hpublish _).bind fun told s' hs' => ?_
  match told with
  | .ok () => exact hs'
  | .error _ => exact shows_log hs'

theorem Rehearsal.Reclaimed.cons {m' : Scene} {r : Reservation} {start start' out : SweepSummary}
    (hstep : ∀ rest, m.reclaim (r :: rest) start = m'.reclaim rest start')
    (h : Reclaimed stack since m' deadline rs start' out s) :
    Reclaimed stack since m deadline (r :: rs) start out s := by
  rcases h with ⟨n, hn, hall, hout, hs⟩
  refine ⟨n + 1, Nat.succ_le_succ hn, fun h => congrArg (· + 1) (hall h), ?_, ?_⟩
  · rw [List.take_succ_cons, List.drop_succ_cons, hstep]
    exact hout
  · rw [List.take_succ_cons, hstep]
    exact hs

/-- Each claim is settled as if the cache were not there, and its outcome is recorded. -/
theorem safe_releaseAll (hw : w.service.ledger = stack.ledger) (hu : ∀ n, since ≤ uptimes n)
    (h : m.Awaits rs) (hs : s.Stands stack since m) (start : SweepSummary) :
    (w.releaseAll deadline rs start).Safe (Rehearsal.setting uptimes)
      (fun out s' => Rehearsal.Reclaimed stack since m deadline rs start out s') s := by
  induction rs generalizing m s start with
  | nil =>
    refine ⟨0, Nat.le_refl 0, fun _ => rfl, ?_, hs⟩
    simp [Scene.reclaim, SweepSummary.addDeferred]
  | cons r rest ih =>
    refine (shows_budgetSpent hs).bind fun spent s₁ hspent => ?_
    rcases hspent with ⟨hendless, hs₁⟩
    cases spent with
    | true =>
      refine (shows_log hs₁).bind fun _ s₂ hs₂ => ?_
      exact ⟨0, Nat.zero_le _, fun h => (nomatch hendless h), rfl, hs₂⟩
    | false =>
      have hrow := (h.overdue r (List.mem_cons_self ..)).1
      have hsettle : (w.service.settle .expire r).ComesTo stack since uptimes m _ :=
        comesTo_settle hw hu h.keyed hrow
      refine Program.Safe.bind (p := (w.service.expire r).run) (hsettle s₁ hs₁) ?_
      rintro _ s₂ ⟨rfl, hs₂⟩
      -- Both outcomes leave a scene in which the other claims are still overdue.
      cases hsettles : m.settles r with
      | true =>
        rcases Scene.settle_overdue h hsettles with ⟨x, y, -, -, hok⟩
        rw [hok] at hs₂ ⊢
        refine (shows_announce hs₂).bind fun _ s₃ hs₃ => ?_
        refine (ih (h.expire y) hs₃ _).mono fun out s₄ hout => ?_
        exact hout.cons fun rest => Scene.reclaim_released hok start
      | false =>
        rcases Scene.settle_refused hsettles with ⟨f, hf⟩
        rw [hf] at hs₂ ⊢
        refine (shows_log hs₂).bind fun _ s₃ hs₃ => ?_
        refine (ih h.tail hs₃ _).mono fun out s₄ hout => ?_
        exact hout.cons fun rest => Scene.reclaim_refused hf start

/-- The oldest overdue claims are found and released. -/
theorem safe_sweep (hw : w.service.ledger = stack.ledger) (hu : ∀ n, since ≤ uptimes n)
    (hfound : m.reservations.expired m.now w.config.batchLimit = rs) (h : m.Awaits rs)
    (hs : s.Stands stack since m) :
    Program.Safe (Rehearsal.setting uptimes) (fun a s' => ∃ deadline out, a = .ok out.counted ∧
      (w.config.budget = none → deadline = none) ∧
      Rehearsal.Reclaimed stack since m deadline rs { found := rs.length } out s') w.sweep.run s := by
  have huptime : (Program.ask .uptime).Safe (Rehearsal.setting uptimes)
      (fun _ s' => s'.Stands stack since m) s := safe_ask_alone ⟨hs.scene, hs.cache⟩
  refine huptime.bind fun started s₁ hs₁ => ?_
  have hnow : (Program.ask .now).Safe (Rehearsal.setting uptimes)
      (fun t s' => t = m.now ∧ s'.Stands stack since m) s₁ :=
    safe_ask_alone ⟨congrArg Scene.now hs₁.scene, hs₁.scene, hs₁.cache⟩
  refine hnow.bind ?_
  rintro _ s₂ ⟨rfl, hs₂⟩
  have hsearch : (Program.ask
      (.findExpiredWithin w.config.budget m.now w.config.batchLimit)).Safe
      (Rehearsal.setting uptimes)
      (fun answer s' => answer = some (.ok rs) ∧ s'.Stands stack since m) s₂ := by
    refine safe_ask_alone ⟨?_, hs₂.scene, hs₂.cache⟩
    have hreservations : s₂.stage.reservations = m.reservations :=
      congrArg Scene.reservations hs₂.scene
    rw [← hfound, ← hreservations]
    rfl
  refine hsearch.bind ?_
  rintro _ s₃ ⟨rfl, hs₃⟩
  cases rs with
  | nil =>
    -- Nothing was found, so the budget is never asked for.
    refine (shows_log hs₃).bind fun _ s₄ hs₄ => ?_
    exact ⟨none, { found := 0 }, rfl, fun _ => rfl, 0, Nat.le_refl 0, fun _ => rfl, rfl, hs₄⟩
  | cons r rest =>
    refine (safe_releaseAll hw hu h hs₃ _).bind fun out s₄ hout => ?_
    rcases hout with ⟨n, hn, hall, rfl, hs₄⟩
    refine (shows_log hs₄).bind fun _ s₅ hs₅ => ?_
    refine ⟨_, _, rfl, fun hbudget => ?_, n, hn, hall, rfl, hs₅⟩
    rw [hbudget]
    rfl

theorem shows_leave (hs : s.Stands stack since m) :
    (Program.ask .leaveSweep).Safe (Rehearsal.setting uptimes)
      (fun _ s' => s'.Stands stack since { m with sweeping := false }) s := by
  refine safe_ask_alone ⟨?_, hs.cache⟩
  rw [← hs.scene]
  rfl

/-- What an undisturbed sweep on request reports, and what it leaves behind. -/
structure Rehearsal.Triggered (stack : Stack) (since : Nat) (m : Scene) (config : SweepConfig)
    (rs : List Reservation) (n : Nat) (a : Answer SweepSummary) (s : Rehearsal) : Prop where
  le : n ≤ rs.length
  endless : config.budget = none → n = rs.length
  answer : a = .ok (({ m with sweeping := true }.reclaim (rs.take n)
    { found := rs.length }).1.addDeferred ((rs.drop n).map Reservation.id)).counted
  stands : s.Stands stack since { ({ m with sweeping := true }.reclaim (rs.take n)
    { found := rs.length }).2 with sweeping := false }

theorem safe_trigger (hw : w.service.ledger = stack.ledger) (hu : ∀ n, since ≤ uptimes n)
    (hfree : m.sweeping = false)
    (hfound : m.reservations.expired m.now w.config.batchLimit = rs) (h : m.Awaits rs)
    (hs : s.Stands stack since m) : Program.Safe (Rehearsal.setting uptimes)
      (fun a s' => ∃ n, Rehearsal.Triggered stack since m w.config rs n a s') w.trigger.run s := by
  have henter : (Program.ask .enterSweep).Safe (Rehearsal.setting uptimes)
      (fun free s' => free = true ∧ s'.Stands stack since { m with sweeping := true }) s := by
    rw [← hs.scene] at hfree
    refine safe_ask_alone ⟨?_, ?_, hs.cache⟩
    · change (!s.stage.sweeping) = true
      rw [show s.stage.sweeping = false from hfree]
      rfl
    · rw [← hs.scene]
      rfl
  refine henter.bind ?_
  rintro _ s₁ ⟨rfl, hs₁⟩
  refine (safe_sweep (m := { m with sweeping := true }) hw hu hfound (h.sweeping true) hs₁).bind ?_
  rintro _ s₂ ⟨deadline, out, rfl, hdeadline, n, hn, hall, rfl, hs₂⟩
  have hrecord (tally : SweepTally) : (Program.ask (.recordSweep tally)).Safe
      (Rehearsal.setting uptimes) (fun _ s' => s'.Stands stack since _) s₂ :=
    safe_ask_alone ⟨hs₂.scene, hs₂.cache⟩
  refine (hrecord _).bind fun _ s₃ hs₃ => ?_
  refine (shows_leave hs₃).bind fun _ s₄ hs₄ => ?_
  exact ⟨n, hn, fun hbudget => hall (hdeadline hbudget), rfl, hs₄⟩

end
end StockLedger
