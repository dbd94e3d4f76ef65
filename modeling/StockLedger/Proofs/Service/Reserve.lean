import Mathlib.Tactic.Common
import StockLedger.Proofs.Concurrent.Solo
import StockLedger.Proofs.Memory.Items
import StockLedger.Proofs.Rehearsal.Calm
import StockLedger.Proofs.Service.Products
import StockLedger.Proofs.Stock.Conservation

/-!
# Claims that are made without interference

A request for units has six obstacles, which are looked at in a fixed order. The first one that is
met decides what the request comes to, and nothing is changed; if none is met, the claim is made.

* `Reserving.Wish` : a request for units;
* `Reserving.Obstacle`, `Obstacle.Met`, `Obstacle.First` : what may be in its way;
* `Reserving.ends_of_first` : the first obstacle decides, and both stores stay as they are;
* `Reserving.ends_of_free` : without an obstacle one item is changed and one claim is added;
* `reserve_answers` : all that a request for units comes to, in every state that workflows reach.
-/

namespace StockLedger
namespace Reserving

/-- A request for units of a product, for an order and for some time. -/
structure Wish where
  product : ProductId
  order : OrderId
  units : Int
  span : Span

/-- The ledger holds this item of the product. -/
def Stocks (l : MemoryLedger) (p : ProductId) (x : StockItem) : Prop :=
  l.items.find? x.id = some x ∧ x.productId = p

/-- Some claim is stored for the order, whatever its status. -/
def Claimed (m : MemoryReservations) (o : OrderId) : Prop :=
  ∃ id r, m.rows.find? id = some r ∧ r.orderId = o

/-! ## Obstacles -/

/-- What may be in the way of a claim. -/
inductive Obstacle
  | badUnits
  | claimed
  | unknown
  | short
  | badSpan
  | outOfRange
deriving DecidableEq, Repr

namespace Obstacle

/-- All obstacles, in the order in which they are looked at. -/
def all : List Obstacle :=
  [badUnits, claimed, unknown, short, badSpan, outOfRange]

/-- The code of the refusal; where an expiry is out of range, the program breaks off. -/
def code? : Obstacle → Option Fault.Code
  | badUnits => some .invalidQuantity
  | claimed => some .reservationAlreadyExists
  | unknown => some .productNotFound
  | short => some .insufficientStock
  | badSpan => some .invalidDuration
  | outOfRange => none

/-- Is this in the way? -/
def Met (d : Tableau) (w : Wish) : Obstacle → Prop
  | badUnits => w.units ≤ 0
  | claimed => Claimed d.reservations w.order
  | unknown => ¬ ∃ x, Stocks d.ledger w.product x
  | short => ∃ x, Stocks d.ledger w.product x ∧ x.available < w.units
  | badSpan => ¬ w.span.Positive
  | outOfRange => d.now.add? w.span = none

/-- This is in the way, and nothing that is looked at earlier is. -/
def First (d : Tableau) (w : Wish) (o : Obstacle) : Prop :=
  o.Met d w ∧ ∀ o' ∈ all.takeWhile (· != o), ¬ o'.Met d w

variable {d : Tableau} {w : Wish} {o o' : Obstacle}

theorem first_unique (h : o.First d w) (h' : o'.First d w) : o = o' := by
  have horder : o = o' ∨ o ∈ all.takeWhile (· != o') ∨ o' ∈ all.takeWhile (· != o) := by
    cases o <;> cases o' <;> decide
  rcases horder with heq | hbefore | hafter
  · exact heq
  · exact absurd h.1 (h'.2 o hbefore)
  · exact absurd h'.1 (h.2 o' hafter)

/-- Of what is in the way something comes first. -/
theorem exists_first_of_mem {p : Obstacle → Prop} {l : List Obstacle} (h : ∃ o ∈ l, p o) :
    ∃ o, p o ∧ ∀ o' ∈ l.takeWhile (· != o), ¬ p o' := by
  induction l with
  | nil =>
    rcases h with ⟨o, ho, -⟩
    cases ho
  | cons a l ih =>
    by_cases ha : p a
    · exact ⟨a, ha, by simp⟩
    · have hlater : ∃ o ∈ l, p o := by simpa [ha] using h
      rcases ih hlater with ⟨o, ho, hbefore⟩
      refine ⟨o, ho, fun o' ho' => ?_⟩
      rw [List.takeWhile_cons] at ho'
      split at ho'
      · rcases List.mem_cons.1 ho' with rfl | hrest
        · exact ha
        · exact hbefore o' hrest
      · cases ho'

theorem exists_first (h : o.Met d w) : ∃ o : Obstacle, o.First d w :=
  exists_first_of_mem ⟨o, by cases o <;> decide, h⟩

/-- What a request comes to if this is the first obstacle. -/
def Says (o : Obstacle) (out : Progress (Answer Reserved)) : Prop :=
  match o.code? with
  | some c => ∃ f, out = .ended (.error f) ∧ f.code = c
  | none => out = .broken

theorem says_unique {out : Progress (Answer Reserved)} (h : o.Says out) (h' : o'.Says out) :
    o = o' := by
  have hcode : o.code? = o'.code? := by
    unfold Says at h h'
    cases hc : o.code? with
    | some c =>
      rw [hc] at h
      rcases h with ⟨f, rfl, rfl⟩
      cases hc' : o'.code? with
      | some c' =>
        rw [hc'] at h'
        rcases h' with ⟨f', hf, rfl⟩
        cases hf
        rfl
      | none =>
        rw [hc'] at h'
        cases h'
    | none =>
      rw [hc] at h
      cases hc' : o'.code? with
      | some c' =>
        rw [hc', h] at h'
        rcases h' with ⟨_, hf, -⟩
        cases hf
      | none => rfl
  cases o <;> cases o' <;> first | rfl | cases hcode

end Obstacle

/-! ## What the stores answer -/

section

variable {l : MemoryLedger} {m : MemoryReservations} {p : ProductId} {o : OrderId} {x : StockItem}

theorem findByProduct_eq_ok_iff (h : l.Indexed) : l.findByProduct p = .ok x ↔ Stocks l p x := by
  unfold MemoryLedger.findByProduct Stocks
  rw [← h.find?_product_iff]
  cases (l.byProduct.find? p).bind l.items.find? <;> simp

theorem findByProduct_of_unknown (h : l.Indexed) (hnone : ¬ ∃ x, Stocks l p x) :
    l.findByProduct p = .error (.productNotFound (MemoryLedger.aboutProduct p)) := by
  cases hfind : l.findByProduct p with
  | ok x => exact absurd ⟨x, (findByProduct_eq_ok_iff h).1 hfind⟩ hnone
  | error f =>
    unfold MemoryLedger.findByProduct at hfind
    split at hfind
    · cases hfind
    · exact hfind.symm

/-- No product has two items. -/
theorem Stocks.unique (h : l.Indexed) {y : StockItem} (hx : Stocks l p x) (hy : Stocks l p y) :
    x = y :=
  Except.ok.inj (((findByProduct_eq_ok_iff h).2 hx).symm.trans ((findByProduct_eq_ok_iff h).2 hy))

theorem findByOrder_eq_none_iff (h : m.Indexed) : m.findByOrder o = none ↔ ¬ Claimed m o := by
  unfold MemoryReservations.findByOrder Claimed
  constructor
  · rintro hnone ⟨id, r, hr, hro⟩
    rw [(h.order o id).2 ⟨r, hr, hro⟩, Option.bind_some, hr] at hnone
    cases hnone
  · intro hnone
    cases hid : m.byOrder.find? o with
    | none => rfl
    | some id =>
      rcases (h.order o id).1 hid with ⟨r, hr, hro⟩
      exact absurd ⟨id, r, hr, hro⟩ hnone

end

/-! ## What becomes of a request -/

/-- How an item is changed by a claim. -/
structure Promises (x u : StockItem) (units : Int) (now : Timestamp) : Prop where
  id : u.id = x.id
  productId : u.productId = x.productId
  quantity : u.quantity = x.quantity
  reserved : u.reserved = x.reserved + units
  version : u.version = x.version + 1
  createdAt : u.createdAt = x.createdAt
  updatedAt : u.updatedAt = now

/-- The claim that is made. -/
structure Grants (w : Wish) (x : StockItem) (v : Reserved) (r : Reservation) (now : Timestamp) :
    Prop where
  id : r.id = v.reservationId
  itemId : r.itemId = x.id
  orderId : r.orderId = w.order
  quantity : r.quantity = w.units
  status : r.status = .pending
  expiresAt : r.expiresAt = v.expiresAt
  createdAt : r.createdAt = now
  updatedAt : r.updatedAt = now

/-- One item of the product is changed, one claim is added, and all else is as it was. -/
structure Done (d : Tableau) (w : Wish) (v : Reserved) (d' : Tableau) : Prop where
  expiresAt : d.now.add? w.span = some v.expiresAt
  rows : ∃ x u r, Stocks d.ledger w.product x ∧ v.available = x.available - w.units ∧
    Promises x u w.units d.now ∧ Grants w x v r d.now ∧
    d.reservations.rows.find? r.id = none ∧
    (∀ id, d'.ledger.items.find? id = if id = x.id then some u else d.ledger.items.find? id) ∧
    ∀ id, d'.reservations.rows.find? id =
      if id = r.id then some r else d.reservations.rows.find? id
  indexed : d'.ledger.Indexed ∧ d'.reservations.Indexed

/-- The stores show the same. -/
structure SameStores (d d' : Tableau) : Prop where
  ledger : d'.ledger = d.ledger
  reservations : d'.reservations = d.reservations

/-! ## What is left to do -/

/-- Once the claim is made up, the item is written, and then the claim. -/
def commit (v : Service) (u : StockItem) (r : Reservation) : Request Reserved := do
  let s ← v.write u
  Service.reporting
    "reservation write failed after ledger update; reserved count is now ahead of reservations"
    (Service.reservations (.save r))
  Service.log .info "stock reserved"
  return { reservationId := r.id, expiresAt := r.expiresAt, available := s.available }

/-- Once the item of the product is known, units of it are claimed. -/
def promise (v : Service) (w : Wish) (x : StockItem) : Request Reserved := do
  let u ← Request.ofAnswer (x.reserve w.units)
  let t ← Service.now
  let id ← Service.freshUuid
  let r ← Service.inRange (Reservation.open? ⟨id⟩ u.id w.order w.units w.span t)
  commit v u r

section

variable {v : Service} {d d' : Tableau} {w : Wish} {ttl : Option Span} {x u : StockItem}
  {out : Progress (Answer Reserved)}

theorem reserve_eq (hspan : ttl.getD v.defaultTtl = w.span) :
    v.reserve w.product w.order w.units ttl =
      if w.units ≤ 0 then throw (Fault.invalidQuantity w.units)
      else (do
        Service.ensureUnclaimed w.order
        let x ← v.itemOf w.product
        promise v w x) := by
  unfold promise
  rw [← hspan]
  rfl

theorem ends_unclaimed (h : d.reservations.findByOrder w.order = none) :
    (Service.ensureUnclaimed w.order).Ends d (.ended (.ok ())) d := by
  have hfind := ends_reservations (d := d) (.findByOrder w.order)
  have hreply : d.reservations.reply (.findByOrder w.order) = .ok none := congrArg _ h
  rw [hreply] at hfind
  exact hfind.bind (Request.ends_pure ())

theorem ends_claimed {r : Reservation} (h : d.reservations.findByOrder w.order = some r) :
    (Service.ensureUnclaimed w.order).Ends d
      (.ended (.error (Service.alreadyReserved w.order r))) d := by
  have hfind := ends_reservations (d := d) (.findByOrder w.order)
  have hreply : d.reservations.reply (.findByOrder w.order) = .ok (some r) := congrArg _ h
  rw [hreply] at hfind
  exact hfind.bind (Request.ends_throw _)

/-- If the order and the item are in order, the rest decides. -/
theorem ends_reserve_of_promise (hv : v.ledger = Stack.plain.ledger)
    (hspan : ttl.getD v.defaultTtl = w.span) (hl : d.ledger.Indexed) (hm : d.reservations.Indexed)
    (hunits : ¬ w.units ≤ 0) (hfree : ¬ Claimed d.reservations w.order)
    (hx : Stocks d.ledger w.product x) (h : (promise v w x).Ends d out d') :
    (v.reserve w.product w.order w.units ttl).Ends d out d' := by
  have hitem := ends_itemOf (d := d) hv w.product
  rw [(findByProduct_eq_ok_iff hl).2 hx] at hitem
  rw [reserve_eq hspan, if_neg hunits]
  refine (ends_unclaimed ((findByOrder_eq_none_iff hm).2 hfree)).bind ?_
  exact hitem.bind h

/-- If the item has enough units, the claim that is made up decides. -/
theorem ends_promise_of_reserve (hu : x.reserve w.units = .ok u)
    (h : (Service.inRange (Reservation.open? ⟨d.ids.next.1⟩ u.id w.order w.units w.span d.now) >>=
      commit v u).Ends { d with ids := d.ids.next.2 } out d') : (promise v w x).Ends d out d' := by
  unfold promise
  rw [hu]
  refine (Request.ends_ofAnswer _).bind ?_
  refine ends_now.bind ?_
  exact ends_freshUuid.bind h

theorem reserve_of_short (hunits : ¬ w.units ≤ 0) (hshort : x.available < w.units) :
    x.reserve w.units = .error (.insufficientStock w.units x.available) := by
  rw [StockItem.reserve, dif_pos (Int.not_le.1 hunits), dif_neg (Int.not_le.2 hshort)]

/-- Available units can be claimed. -/
theorem exists_reserve (hunits : ¬ w.units ≤ 0) (henough : ¬ x.available < w.units) :
    ∃ u, x.reserve w.units = .ok u := by
  rw [StockItem.reserve, dif_pos (Int.not_le.1 hunits), dif_pos (Int.not_lt.1 henough)]
  exact ⟨_, rfl⟩

end

/-- What is shown once an item is written over and a claim is added. -/
def committed (d : Tableau) (u : StockItem) (r : Reservation) : Tableau :=
  { d with
    ledger := { d.ledger with items := d.ledger.items.insert u.id (MemoryLedger.advance u d.now) }
    reservations :=
      { rows := d.reservations.rows.insert r.id r
        byOrder := d.reservations.byOrder.insert r.orderId r.id } }

theorem ends_commit {v : Service} {d : Tableau} {x u : StockItem} {r : Reservation}
    (hv : v.ledger = Stack.plain.ledger) (hstored : d.ledger.items.find? u.id = some x)
    (hversion : x.version = u.version) (hrow : d.reservations.rows.find? r.id = none)
    (hindex : d.reservations.byOrder.find? r.orderId = none) :
    (commit v u r).Ends d (.ended (.ok ⟨r.id, r.expiresAt, u.available⟩)) (committed d u r) := by
  have hwrite := ends_write (d := d) hv u
  rw [MemoryLedger.reply_update hstored hversion, MemoryLedger.apply_update hstored hversion]
    at hwrite
  have hsave := ends_reservations
    (d := { d with ledger := { d.ledger with
      items := d.ledger.items.insert u.id (MemoryLedger.advance u d.now) } }) (.save r)
  rw [MemoryReservations.reply_save hrow hindex, MemoryReservations.apply_save hrow hindex] at hsave
  refine hwrite.bind ?_
  refine (ends_reporting hsave).bind ?_
  refine (ends_log _ _).bind ?_
  exact Request.ends_pure _

/-! ## What a claim is made up of -/

section

variable (id : ReservationId) (i : ItemId) (o : OrderId) {units : Int} {span : Span}
  {now : Timestamp}

theorem open?_of_badSpan (hunits : 0 < units ∧ units ≤ maxUnits) (hspan : ¬ span.Positive) :
    ∃ f, f.code = .invalidDuration ∧
      Reservation.open? id i o units span now = some (.error f) := by
  rw [Reservation.open?, dif_pos hunits, if_neg hspan]
  exact ⟨_, rfl, rfl⟩

theorem open?_of_outOfRange (hunits : 0 < units ∧ units ≤ maxUnits) (hspan : span.Positive)
    (hnow : now.add? span = none) : Reservation.open? id i o units span now = none := by
  rw [Reservation.open?, dif_pos hunits, if_pos hspan, hnow, Option.map_none]

/-- The claim that is made now. -/
theorem open?_of_range (hunits : 0 < units ∧ units ≤ maxUnits) (hspan : span.Positive)
    {expiresAt : Timestamp} (hnow : now.add? span = some expiresAt) :
    ∃ r : Reservation, Reservation.open? id i o units span now = some (.ok r) ∧ r.id = id ∧
      r.itemId = i ∧ r.orderId = o ∧ r.quantity = units ∧ r.status = .pending ∧
      r.expiresAt = expiresAt ∧ r.createdAt = now ∧ r.updatedAt = now := by
  rw [Reservation.open?, dif_pos hunits, if_pos hspan, hnow, Option.map_some]
  exact ⟨_, rfl, rfl, rfl, rfl, rfl, rfl, rfl, rfl, rfl⟩

end

section

variable {v : Service} {d : Tableau} {w : Wish} {ttl : Option Span}
  (hv : v.ledger = Stack.plain.ledger) (hspan : ttl.getD v.defaultTtl = w.span)
  (hl : d.ledger.Indexed) (hm : d.reservations.Indexed)

/-- What can be claimed can be counted. -/
theorem units_range {x : StockItem} (hunits : ¬ w.units ≤ 0) (henough : ¬ x.available < w.units) :
    0 < w.units ∧ w.units ≤ maxUnits := by
  have hreserved := x.reserved_nonneg
  have hquantity := x.quantity_le
  unfold StockItem.available at henough
  omega

include hv hspan hl hm

/-- The first obstacle decides, and both stores stay as they are. -/
theorem ends_of_first {o : Obstacle} (h : o.First d w) :
    ∃ out d', (v.reserve w.product w.order w.units ttl).Ends d out d' ∧ o.Says out ∧
      SameStores d d' := by
  have hbefore := h.2
  -- Of the item that has enough units, if this is what was found before.
  have stocked (hunits : ¬ w.units ≤ 0) (hknown : ¬ Obstacle.unknown.Met d w)
      (henough : ¬ Obstacle.short.Met d w) :
      ∃ x u, Stocks d.ledger w.product x ∧ x.reserve w.units = .ok u ∧
        (0 < w.units ∧ w.units ≤ maxUnits) := by
    rcases not_not.1 hknown with ⟨x, hx⟩
    have hx' : ¬ x.available < w.units := fun hshort => henough ⟨x, hx, hshort⟩
    rcases exists_reserve hunits hx' with ⟨u, hu⟩
    exact ⟨x, u, hx, hu, units_range hunits hx'⟩
  cases o with
  | badUnits =>
    have hunits : w.units ≤ 0 := h.1
    rw [reserve_eq hspan, if_pos hunits]
    refine ⟨_, d, Request.ends_throw _, ?_, rfl, rfl⟩
    exact ⟨_, rfl, rfl⟩
  | claimed =>
    have hunits : ¬ w.units ≤ 0 := hbefore .badUnits (by decide)
    rw [reserve_eq hspan, if_neg hunits]
    cases hfind : d.reservations.findByOrder w.order with
    | none => exact absurd h.1 ((findByOrder_eq_none_iff hm).1 hfind)
    | some r =>
      refine ⟨_, d, (ends_claimed hfind).refused, ?_, rfl, rfl⟩
      exact ⟨_, rfl, rfl⟩
  | unknown =>
    have hunits : ¬ w.units ≤ 0 := hbefore .badUnits (by decide)
    have hunclaimed := ends_unclaimed
      ((findByOrder_eq_none_iff hm).2 (hbefore .claimed (by decide)))
    have hitem := ends_itemOf (d := d) hv w.product
    rw [findByProduct_of_unknown hl h.1] at hitem
    rw [reserve_eq hspan, if_neg hunits]
    refine ⟨_, d, hunclaimed.bind hitem.refused, ?_, rfl, rfl⟩
    exact ⟨_, rfl, rfl⟩
  | short =>
    have hunits : ¬ w.units ≤ 0 := hbefore .badUnits (by decide)
    rcases h.1 with ⟨x, hx, hshort⟩
    refine ⟨.ended (.error (.insufficientStock w.units x.available)), d, ?_, ⟨_, rfl, rfl⟩, rfl, rfl⟩
    refine ends_reserve_of_promise hv hspan hl hm hunits (hbefore .claimed (by decide)) hx ?_
    unfold promise
    rw [reserve_of_short hunits hshort]
    exact (Request.ends_ofAnswer _).refused
  | badSpan =>
    have hunits : ¬ w.units ≤ 0 := hbefore .badUnits (by decide)
    rcases stocked hunits (hbefore .unknown (by decide)) (hbefore .short (by decide)) with
      ⟨x, u, hx, hu, hrange⟩
    rcases open?_of_badSpan ⟨d.ids.next.1⟩ u.id w.order hrange h.1 with ⟨f, hf, hopen⟩
    refine ⟨.ended (.error f), { d with ids := d.ids.next.2 }, ?_, ⟨f, rfl, hf⟩, rfl, rfl⟩
    refine ends_reserve_of_promise hv hspan hl hm hunits (hbefore .claimed (by decide)) hx
      (ends_promise_of_reserve hu ?_)
    rw [hopen]
    exact (ends_inRange _).refused
  | outOfRange =>
    have hunits : ¬ w.units ≤ 0 := hbefore .badUnits (by decide)
    rcases stocked hunits (hbefore .unknown (by decide)) (hbefore .short (by decide)) with
      ⟨x, u, hx, hu, hrange⟩
    have hopen := open?_of_outOfRange ⟨d.ids.next.1⟩ u.id w.order hrange
      (not_not.1 (hbefore .badSpan (by decide))) h.1
    refine ⟨.broken, { d with ids := d.ids.next.2 }, ?_, rfl, rfl, rfl⟩
    refine ends_reserve_of_promise hv hspan hl hm hunits (hbefore .claimed (by decide)) hx
      (ends_promise_of_reserve hu ?_)
    rw [hopen]
    exact ends_outOfRange.broken

/-- Without an obstacle the claim is made, if its identity is fresh. -/
theorem ends_of_free (hfree : ∀ o : Obstacle, ¬ o.Met d w)
    (hfresh : d.reservations.rows.find? ⟨d.ids.next.1⟩ = none) :
    ∃ a d', (v.reserve w.product w.order w.units ttl).Ends d (.ended (.ok a)) d' ∧
      Done d w a d' := by
  have hunits : ¬ w.units ≤ 0 := hfree .badUnits
  have hunclaimed : ¬ Claimed d.reservations w.order := hfree .claimed
  rcases not_not.1 (hfree .unknown) with ⟨x, hx⟩
  have henough : ¬ x.available < w.units := fun hshort => hfree .short ⟨x, hx, hshort⟩
  have hrange := units_range hunits henough
  rcases exists_reserve hunits henough with ⟨u, hu⟩
  have happly : x.apply .reserve w.units = .ok u := hu
  have hchanged := StockItem.apply_ok happly
  rcases StockItem.gains_of_apply happly with ⟨hquantity, hcreated, -⟩
  rcases Option.ne_none_iff_exists'.1 (hfree .outOfRange) with ⟨expiresAt, hexpires⟩
  rcases open?_of_range ⟨d.ids.next.1⟩ u.id w.order hrange (not_not.1 (hfree .badSpan)) hexpires
    with ⟨r, hopen, hrid, hritem, hrorder, hrunits, hrstatus, hrexpires, hrcreated, hrupdated⟩
  -- The item is stored as it was read, and neither the order nor the identity has a claim.
  have hstored : d.ledger.items.find? u.id = some x := hchanged.id ▸ hx.1
  have hrow : d.reservations.rows.find? r.id = none := hrid ▸ hfresh
  have hindex : d.reservations.byOrder.find? r.orderId = none := by
    cases hfind : d.reservations.byOrder.find? r.orderId with
    | none => rfl
    | some id =>
      rcases (hm.order _ _).1 hfind with ⟨c, hc, hco⟩
      exact absurd ⟨id, c, hc, hco.trans hrorder⟩ hunclaimed
  have hleft : u.available = x.available - w.units := by
    rw [StockItem.available, StockItem.available, hquantity, hchanged.reserved]
    simp only [StockItem.Change.gains, StockItem.Change.claims]
    omega
  refine ⟨⟨r.id, r.expiresAt, u.available⟩, committed { d with ids := d.ids.next.2 } u r, ?_, ?_⟩
  · refine ends_reserve_of_promise hv hspan hl hm hunits hunclaimed hx
      (ends_promise_of_reserve hu ?_)
    rw [hopen]
    refine (ends_inRange _).bind ?_
    exact ends_commit hv hstored hchanged.version.symm hrow hindex
  · have hpromises : Promises x (MemoryLedger.advance u d.now) w.units d.now :=
      ⟨hchanged.id, hchanged.productId, hquantity.trans (Int.add_zero _), hchanged.reserved,
        congrArg (· + 1) hchanged.version, hcreated, rfl⟩
    have hgrants : Grants w x ⟨r.id, r.expiresAt, u.available⟩ r d.now :=
      ⟨rfl, hritem.trans hchanged.id, hrorder, hrunits, hrstatus, rfl, hrcreated, hrupdated⟩
    refine ⟨hrexpires ▸ hexpires, ⟨x, _, r, hx, hleft, hpromises, hgrants, hrow, ?_, ?_⟩, ?_,
      hm.save hrow hindex⟩
    · rw [← hchanged.id]
      exact fun id => Table.find?_insert _ _ id _
    · exact fun id => Table.find?_insert _ _ id _
    · exact hl.insert (s := MemoryLedger.advance u d.now) rfl hstored hpromises.productId

end

/-- All that a request for units comes to. -/
structure Answers (d : Tableau) (w : Wish) (out : Progress (Answer Reserved)) (d' : Tableau) :
    Prop where
  stopped : ∀ o : Obstacle, o.Says out ↔ o.First d w
  made : (∃ a, out = .ended (.ok a)) ↔ ∀ o : Obstacle, ¬ o.Met d w
  same : (∀ a, out ≠ .ended (.ok a)) → SameStores d d'
  done : ∀ a, out = .ended (.ok a) → Done d w a d'

theorem Obstacle.Says.not_made {o : Obstacle} {out : Progress (Answer Reserved)} (h : o.Says out)
    (a : Reserved) : out ≠ .ended (.ok a) := by
  rintro rfl
  unfold Obstacle.Says at h
  split at h
  · rcases h with ⟨f, hf, -⟩
    cases hf
  · cases h

section

variable {v : Service} {d d' : Tableau} {w : Wish} {out : Progress (Answer Reserved)}

theorem answers_of_first {o : Obstacle} (hfirst : o.First d w) (htold : o.Says out)
    (hsame : SameStores d d') : Answers d w out d' where
  stopped _ :=
    ⟨fun h => (Obstacle.says_unique h htold) ▸ hfirst,
      fun h => (Obstacle.first_unique h hfirst) ▸ htold⟩
  made := iff_of_false (fun ⟨a, ha⟩ => htold.not_made a ha) fun hfree => hfree o hfirst.1
  same _ := hsame
  done a ha := absurd ha (htold.not_made a)

theorem answers_of_free {a : Reserved} (hfree : ∀ o : Obstacle, ¬ o.Met d w)
    (hdone : Done d w a d') : Answers d w (.ended (.ok a)) d' where
  stopped o := iff_of_false (fun h => h.not_made a rfl) fun h => hfree o h.1
  made := iff_of_true ⟨a, rfl⟩ hfree
  same h := absurd rfl (h a)
  done := by
    rintro _ ⟨⟩
    exact hdone

/-- A request comes to what the first obstacle says, or to a claim. -/
theorem exists_answers {ttl : Option Span} (hv : v.ledger = Stack.plain.ledger)
    (hspan : ttl.getD v.defaultTtl = w.span) (hl : d.ledger.Indexed) (hm : d.reservations.Indexed)
    (hfresh : d.reservations.rows.find? ⟨d.ids.next.1⟩ = none) :
    ∃ out d', (v.reserve w.product w.order w.units ttl).Ends d out d' ∧ Answers d w out d' := by
  by_cases hmet : ∃ o : Obstacle, o.Met d w
  · rcases hmet with ⟨o, ho⟩
    rcases Obstacle.exists_first ho with ⟨o', hfirst⟩
    rcases ends_of_first hv hspan hl hm hfirst with ⟨out, d', hends, htold, hsame⟩
    exact ⟨out, d', hends, answers_of_first hfirst htold hsame⟩
  · have hfree := not_exists.1 hmet
    rcases ends_of_free hv hspan hl hm hfree hfresh with ⟨a, d', hends, hdone⟩
    exact ⟨_, d', hends, answers_of_free hfree hdone⟩

/-- For an order that has a claim no other one is made, whatever is asked for. -/
theorem exists_refused {ttl : Option Span} (hv : v.ledger = Stack.plain.ledger)
    (hspan : ttl.getD v.defaultTtl = w.span) (hl : d.ledger.Indexed) (hm : d.reservations.Indexed)
    (hclaimed : Claimed d.reservations w.order) :
    ∃ out d', (v.reserve w.product w.order w.units ttl).Ends d out d' ∧
      (∀ a, out ≠ .ended (.ok a)) ∧ SameStores d d' := by
  have hmet : Obstacle.claimed.Met d w := hclaimed
  rcases Obstacle.exists_first hmet with ⟨o, hfirst⟩
  rcases ends_of_first hv hspan hl hm hfirst with ⟨out, d', hends, htold, hsame⟩
  exact ⟨out, d', hends, htold.not_made, hsame⟩

end

/-- The order of a claim that was made has a claim. -/
theorem Done.claimed {d d' : Tableau} {w : Wish} {a : Reserved} (h : Done d w a d') :
    Claimed d'.reservations w.order := by
  rcases h.rows with ⟨x, u, r, -, -, -, hgrants, -, -, hclaims⟩
  exact ⟨r.id, r, by rw [hclaims, if_pos rfl], hgrants.orderId⟩

end Reserving

open Reserving in
/--
A request for units, with no cache and in any state that workflows reach, while nothing else runs.
The first obstacle decides what it comes to, and then both stores stay as they are. Without an
obstacle the claim is made: one item is changed, one claim is added, and any other request for the
same order changes nothing.
-/
theorem reserve_answers {ttl₀ : Span} {σ : System (Working .plain ttl₀)}
    (hreaches : System.Reaches (Shelving.rules .plain ttl₀) {} σ) {s : Stage} (hcues : s.cues = [])
    (hledger : s.ledger = σ.world.ledger) (hclaims : s.reservations = σ.world.reservations)
    (hfresh : s.reservations.rows.find? ⟨s.ids.next.1⟩ = none) (product : ProductId)
    (order : OrderId) (units : Int) (ttl : Option Span) :
    let v : Service := { ledger := Stack.plain.ledger, defaultTtl := ttl₀ }
    let w : Wish := ⟨product, order, units, ttl.getD ttl₀⟩
    ∃ out s', s.run none (v.reserve product order units ttl).run = (out, s') ∧
      Answers s.tableau w out s'.tableau ∧
      ∀ a, out = .ended (.ok a) → ∀ t : Stage, t.cues = [] → t.ledger = s'.ledger →
        t.reservations = s'.reservations → ∀ product' units' ttl',
        ∃ out' t', t.run none (v.reserve product' order units' ttl').run = (out', t') ∧
          (∀ a', out' ≠ .ended (.ok a')) ∧ SameStores t.tableau t'.tableau := by
  intro v w
  rcases Shelving.indexed hreaches with ⟨hl, hm⟩
  rw [← hledger] at hl
  rw [← hclaims] at hm
  rcases exists_answers (v := v) (w := w) (d := s.tableau) rfl rfl hl hm hfresh with
    ⟨out, d', hends, hanswers⟩
  rcases hends s ⟨hcues, rfl⟩ with ⟨s', hrun, -, rfl⟩
  refine ⟨out, s', hrun, hanswers, ?_⟩
  rintro a ha t ht htledger htclaims product' units' ttl'
  -- The claim is still stored, and that alone is in the way of any other one for its order.
  have hdone := hanswers.done a ha
  have hclaimed : Claimed t.tableau.reservations order := by
    have hlater : Claimed s'.reservations order := hdone.claimed
    rw [← htclaims] at hlater
    exact hlater
  have htl : t.ledger.Indexed := by
    rw [htledger]
    exact hdone.indexed.1
  have htm : t.reservations.Indexed := by
    rw [htclaims]
    exact hdone.indexed.2
  rcases exists_refused (v := v) (w := ⟨product', order, units', ttl'.getD ttl₀⟩) rfl rfl htl htm
    hclaimed with ⟨out', d', hends', hrefused, hsame⟩
  rcases hends' t ⟨ht, rfl⟩ with ⟨t', hrun', -, rfl⟩
  exact ⟨out', t', hrun', hrefused, hsame⟩

namespace Reserving

/-- Ten units of a product, as the only item that was ever created. -/
def stocked : World :=
  ({} : World).afterLedger .epoch (.save (.ten 1))

def created : System (Working .plain Reservation.defaultTtl) where
  world := stocked
  runs := [⟨.createItem ⟨.ofNat 1⟩ 10, {}, .done (Except.ok (.ten 1) : Answer StockItem)⟩]

def sparesTest : (Shelving.rules .plain Reservation.defaultTtl).Test where
  permits _ w _ c served _ := decide (w.Spares c served)
  sound _ h := by
    have hspares := of_decide_eq_true h
    exact hspares

theorem reaches_created :
    System.Reaches (Shelving.rules .plain Reservation.defaultTtl) {} created := by
  let creating : Run (Working .plain Reservation.defaultTtl) :=
    .start _ (.createItem ⟨.ofNat 1⟩ 10)
  have hstart : System.Step (Shelving.rules .plain Reservation.defaultTtl) {} ⟨{}, [creating]⟩ :=
    .start {} _ (fun _ h => nomatch h)
  have hcreate : System.Reaches (Shelving.rules .plain Reservation.defaultTtl) ⟨{}, [creating]⟩
      created :=
    System.Reaches.solo sparesTest .epoch (.ofNat 1) [] [] (by rfl)
  exact .head hstart hcreate

def shop : Stage where
  ledger := stocked.ledger
  reservations := stocked.reservations
  clock := { now := .epoch }
  ids := { millis := 0 }

/-- Four of the ten units are asked for. -/
def fourOfTen : Wish :=
  ⟨⟨.ofNat 1⟩, ⟨.ofNat 3⟩, 4, Reservation.defaultTtl⟩

theorem free_shop (o : Obstacle) : ¬ o.Met shop.tableau fourOfTen := by
  have hitems : shop.tableau.ledger.items =
      (∅ : Table ItemId StockItem).insert (StockItem.ten 1).id (.ten 1) := rfl
  cases o with
  | badUnits =>
    have hunits : ¬ (4 : Int) ≤ 0 := by decide
    exact hunits
  | claimed =>
    rintro ⟨_, _, hr, -⟩
    cases hr
  | unknown =>
    refine not_not.2 ⟨.ten 1, ?_, rfl⟩
    rw [hitems, Table.find?_insert, if_pos rfl]
  | short =>
    rintro ⟨x, ⟨hx, -⟩, hshort⟩
    rw [hitems] at hx
    rcases Table.of_find?_insert hx with ⟨-, rfl⟩ | ⟨-, hold⟩
    · have henough : ¬ (10 : Int) - 0 < 4 := by decide
      exact henough hshort
    · cases hold
  | badSpan =>
    have hlong : Reservation.defaultTtl.Positive := by decide
    exact not_not.2 hlong
  | outOfRange =>
    have hin : Timestamp.epoch.add? Reservation.defaultTtl ≠ none := by decide
    exact hin

/-- Four of ten units are claimed, and the claim is stored. -/
theorem reserve_answers_shop :
    let v : Service := { ledger := Stack.plain.ledger, defaultTtl := Reservation.defaultTtl }
    System.Reaches (Shelving.rules .plain Reservation.defaultTtl) {} created ∧
      ∃ a s', shop.run none (v.reserve ⟨.ofNat 1⟩ ⟨.ofNat 3⟩ 4 none).run = (.ended (.ok a), s') ∧
        Done shop.tableau fourOfTen a s'.tableau := by
  intro v
  rcases reserve_answers reaches_created (s := shop) rfl rfl rfl rfl ⟨.ofNat 1⟩ ⟨.ofNat 3⟩ 4 none
    with ⟨out, s', hrun, hanswers, -⟩
  rcases hanswers.made.2 free_shop with ⟨a, rfl⟩
  exact ⟨reaches_created, a, s', hrun, hanswers.done a rfl⟩

end Reserving
end StockLedger
