import Mathlib.Tactic.Common
import StockLedger.Proofs.Rehearsal.Verdicts

/-!
# Claims can be settled in any order

Some claims share an item, and each of them changes what the next one finds there: the units that
are reserved, the units that are in stock, and the version. As long as the units of all of them are
reserved at first, none is refused, whichever comes first, and the same is stored in the end.

* `Service.carryOut` : claims are settled as they are to end, one after another;
* `safe_carryOut` : all of them end so, and what is stored is told by the sums over them;
* `settlements_commute` : so that every order ends with the same items and the same claims.
-/

namespace StockLedger

/-- The claim ends as it is to. An expired claim is handed over; the others are asked for by id. -/
def Service.carry (v : Service) (d : Verdict) : Request Reservation :=
  match d.way with
  | .confirm => v.confirm d.claim.id
  | .release => v.release d.claim.id
  | .expire => do
      let (r, _) ← v.expire d.claim
      return r

/-- One claim after another ends as it is to. -/
def Service.carryOut (v : Service) : List Verdict → Program (List (Answer Reservation))
  | [] => return []
  | d :: rest => do
      let a ← (v.carry d).run
      let answers ← v.carryOut rest
      return a :: answers

section

variable {stack : Stack} {v : Service} {since : Nat} {uptimes : Nat → Nat} {m : Scene}
  {s : Rehearsal} {d : Verdict} {ds rest : List Verdict}

/-- Each way to end a claim settles it. -/
theorem comesTo_carry (hv : v.ledger = stack.ledger) (hu : ∀ n, since ≤ uptimes n)
    (hkeyed : m.ledger.Keyed) (hstored : m.reservations.rows.find? d.claim.id = some d.claim) :
    (v.carry d).ComesTo stack since uptimes m
      (m.settle d.way d.claim >>= fun p => .ok (p.1.1, p.2)) := by
  obtain ⟨r, k⟩ := d
  cases k with
  | confirm => exact comesTo_loadSettle hv hu hkeyed hstored
  | release => exact comesTo_loadSettle hv hu hkeyed hstored
  | expire => exact comesTo_settled hv hu hkeyed hstored

/-- The first of the claims is settled, and the others can be. -/
theorem Scene.Ready.carry (h : m.Ready (d :: rest)) (hv : v.ledger = stack.ledger)
    (hu : ∀ n, since ≤ uptimes n) :
    ∃ m', (v.carry d).ComesTo stack since uptimes m (.ok (d.ended m.now, m')) ∧
      m.Judged m' [d] ∧ m'.Ready rest := by
  obtain ⟨x, y, hx, hrelieved, hsettle⟩ := h.settle
  have hcarry : (v.carry d).ComesTo stack since uptimes m
      (m.settle d.way d.claim >>= fun p => .ok (p.1.1, p.2)) :=
    comesTo_carry hv hu h.ledger (h.stored d (List.mem_cons_self ..))
  rw [hsettle] at hcarry
  exact ⟨m.judge d y, hcarry, Scene.judged_judge h.ledger hx hrelieved, h.judge hx hrelieved⟩

/-- All claims are settled. -/
theorem safe_carryOut (hv : v.ledger = stack.ledger) (hu : ∀ n, since ≤ uptimes n)
    (hready : m.Ready ds) (hs : s.Stands stack since m) :
    (v.carryOut ds).Safe (Rehearsal.setting uptimes) (fun answers s' =>
      answers = ds.map (fun d => .ok (d.ended m.now)) ∧ m.Judged s'.stage.scene ds) s := by
  induction ds generalizing m s with
  | nil =>
    refine ⟨rfl, ?_⟩
    rw [hs.scene]
    exact .refl m
  | cons d rest ih =>
    obtain ⟨m', hcarry, hjudged, hrest⟩ := hready.carry hv hu
    refine Program.Safe.bind (p := (v.carry d).run) (hcarry s hs) ?_
    rintro _ s₁ ⟨rfl, hs₁⟩
    refine (ih hrest hs₁).bind ?_
    rintro _ s₂ ⟨rfl, hothers⟩
    -- The clock has not moved, and no claim is settled twice.
    have hapart : ∀ a ∈ [d], ∀ b ∈ rest, b.claim.id ≠ a.claim.id := by
      intro a ha b hb
      rw [List.mem_singleton.1 ha]
      exact ((List.pairwise_cons.1 hready.distinct).1 b hb).symm
    refine ⟨?_, hjudged.trans hothers hapart⟩
    rw [hjudged.now]
    rfl

end

/--
Different claims that are pending, and that the clock allows to end as they are to; the units of all
of them are reserved. Nothing interferes, and no request fails. Then, in whatever order the claims
are settled, each of them is, and the items and claims that are stored in the end are the same.
-/
theorem settlements_commute (stack : Stack) {v : Service} (hv : v.ledger = stack.ledger)
    {s : Rehearsal} {since : Nat} {uptimes : Nat → Nat} (huptimes : ∀ n, since ≤ uptimes n)
    (hcache : stack.Trusts since s.stage.ledger (fun _ => False) s.stage.cache)
    {ds : List Verdict} (hready : s.stage.scene.Ready ds) :
    ∃ m, s.stage.scene.Judged m ds ∧ ∀ order : List Verdict, order.Perm ds → ∃ s',
      (v.carryOut order).runOn (Rehearsal.answer? uptimes) s =
        some (order.map fun d => .ok (d.ended s.stage.clock.now), s') ∧
      (∀ id, s'.stage.ledger.items.find? id = m.ledger.items.find? id) ∧
      s'.stage.ledger.byProduct = m.ledger.byProduct ∧
      (∀ id, s'.stage.reservations.rows.find? id = m.reservations.rows.find? id) ∧
      s'.stage.reservations.byOrder = m.reservations.byOrder := by
  have hs : s.Stands stack since s.stage.scene := ⟨rfl, hcache⟩
  have hrun {order : List Verdict} (hperm : order.Perm ds) : ∃ s',
      (v.carryOut order).runOn (Rehearsal.answer? uptimes) s =
        some (order.map fun d => .ok (d.ended s.stage.clock.now), s') ∧
      s.stage.scene.Judged s'.stage.scene order := by
    obtain ⟨_, s', hrun, rfl, hjudged⟩ := (safe_carryOut hv huptimes (hready.perm hperm) hs).runOn
    exact ⟨s', hrun, hjudged⟩
  -- The claims are settled as they are listed, and then in any other order.
  obtain ⟨listed, -, hlisted⟩ := hrun (List.Perm.refl ds)
  refine ⟨listed.stage.scene, hlisted, fun order hperm => ?_⟩
  obtain ⟨s', hanswers, hjudged⟩ := hrun hperm
  have hproducts := hjudged.byProduct.trans hlisted.byProduct.symm
  have horders := hjudged.byOrder.trans hlisted.byOrder.symm
  exact ⟨s', hanswers, hjudged.items_eq hlisted hperm, hproducts, hjudged.rows_eq hlisted hperm,
    horders⟩

namespace Commuting

/-- All ten units are reserved, for three claims. -/
def item : StockItem :=
  .tenWith 10

/-- Four units are sold. -/
def sold : Verdict where
  claim := .four 1
  way := .confirm

/-- Three units are given back. -/
def returned : Verdict where
  claim := { Reservation.four 1 with
    id := ⟨.ofNat 5⟩, orderId := ⟨.ofNat 6⟩, quantity := 3, quantity_range := by decide }
  way := .release

/-- Three units were claimed for a claim that has expired. -/
def lapsed : Verdict where
  claim := { Reservation.four 1 with
    id := ⟨.ofNat 7⟩, orderId := ⟨.ofNat 8⟩, quantity := 3, quantity_range := by decide
    expiresAt := .epoch }
  way := .expire

def stage : Stage where
  ledger := MemoryLedger.empty.apply .epoch (.save item)
  reservations := ((MemoryReservations.empty.apply (.save sold.claim)).apply
    (.save returned.claim)).apply (.save lapsed.claim)
  clock := { now := (Timestamp.epoch.add? (.ofSeconds 1)).getD .epoch }
  ids := { millis := 0 }

theorem ready_stage : stage.scene.Ready [sold, returned, lapsed] where
  ledger := MemoryLedger.keyed_empty.outcome (MemoryLedger.outcome _ .epoch (.save item))
  distinct := by decide
  stored := by decide
  permitted := List.forall_mem_cons.2 ⟨⟨rfl, by decide⟩,
    List.forall_mem_cons.2 ⟨rfl, List.forall_mem_singleton.2 ⟨rfl, by decide⟩⟩⟩
  covered := by
    have hitems : ∀ d ∈ [sold, returned, lapsed],
        stage.scene.ledger.items.find? d.claim.itemId = some item ∧
          owed (claimsOf [sold, returned, lapsed]) d.claim.itemId ≤ item.reserved := by decide
    exact fun d hd => ⟨item, hitems d hd⟩

/-- The three claims of one item are settled in any order, and no unit is left reserved. -/
theorem settlements_commute_shared :
    let v : Service := { ledger := Stack.plain.ledger, defaultTtl := Reservation.defaultTtl }
    stage.scene.Ready [sold, returned, lapsed] ∧
      ∃ x, x.quantity = 6 ∧ x.reserved = 0 ∧
        ∀ order : List Verdict, order.Perm [sold, returned, lapsed] → ∃ s',
          (v.carryOut order).runOn (Rehearsal.answer? fun _ => 0) { stage } =
            some (order.map fun d => .ok (d.ended stage.clock.now), s') ∧
          s'.stage.ledger.items.find? item.id = some x := by
  intro v
  have huptimes (n : Nat) : 0 ≤ (fun _ : Nat => 0) n := Nat.le_refl 0
  obtain ⟨m, hjudged, hsame⟩ :=
    settlements_commute .plain (v := v) rfl (s := { stage }) huptimes trivial ready_stage
  obtain ⟨x, hx, hrelieved⟩ := hjudged.items item.id item rfl
  refine ⟨ready_stage, x, hrelieved.quantity, hrelieved.reserved, fun order hperm => ?_⟩
  obtain ⟨s', hrun, hitems, -⟩ := hsame order hperm
  exact ⟨s', hrun, (hitems item.id).trans hx⟩

end Commuting
end StockLedger
