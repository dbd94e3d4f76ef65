import Mathlib.Tactic.Common
import StockLedger.Proofs.Service.Realms
import StockLedger.Proofs.Service.Reserve
import StockLedger.Proofs.Service.Workflows

/-!
# Errands of a realm

A workflow, or a question about one product or one claim, that names nothing but what belongs to a
realm asks for nothing else either.

* `Errand` : workflows, and questions about a product or a claim;
* `Errand.through_request` : whatever stands before the ledger, it is asked for the same;
* `Realm.concerns` : an errand that names nothing that is not of the realm;
* `Realm.safe_itemOf`, `Realm.safe_write`, `Realm.safe_reservations` : single requests;
* `Realm.safe_errand` : all that an errand of the realm asks is about the realm.
-/

namespace StockLedger

/-- A workflow, or a question about one product or one claim. -/
inductive Errand
  | work (t : Workflow)
  | reservation (id : ReservationId)
  | availability (product : ProductId)

namespace Errand

abbrev Value : Errand → Type
  | work t => t.Value
  | reservation _ => Reservation
  | availability _ => Availability

def request (v : Service) : (e : Errand) → Request e.Value
  | work t => t.request v
  | reservation id => Service.reservation id
  | availability product => v.availability product

end Errand

section

variable {L : LedgerAccess} {ttl : Span}

open Request

theorem through_createItem (p : ProductId) (units : Int) :
    ((Service.direct ttl).createItem p units).through L =
      (Service.behind L ttl).createItem p units := by
  simp only [Service.createItem, through_bind, through_freshUuid, through_now, through_ofAnswer,
    through_save, through_log, through_pure]

theorem through_changeStock (change : StockItem.Change) (message : String) (p : ProductId)
    (units : Int) :
    ((Service.direct ttl).changeStock change message p units).through L =
      (Service.behind L ttl).changeStock change message p units := by
  simp only [Service.changeStock, through_bind, through_itemOf, through_ofAnswer, through_write,
    through_log, through_pure]

theorem through_ensureUnclaimed (order : OrderId) :
    (Service.ensureUnclaimed order).through L = Service.ensureUnclaimed order := by
  simp only [Service.ensureUnclaimed, through_bind]
  refine bind_congr fun found => ?_
  cases found <;> rfl

theorem through_reserve (p : ProductId) (order : OrderId) (units : Int) (span : Option Span) :
    ((Service.direct ttl).reserve p order units span).through L =
      (Service.behind L ttl).reserve p order units span := by
  unfold Service.reserve
  split
  · rfl
  · simp only [through_bind, through_ensureUnclaimed, through_itemOf, through_ofAnswer,
      through_now, through_freshUuid, through_inRange, through_write, through_reporting,
      through_log, through_pure]
    rfl

theorem through_settle (k : Settlement) (r : Reservation) :
    ((Service.direct ttl).settle k r).through L = (Service.behind L ttl).settle k r := by
  simp only [Service.settle, through_bind, through_now, through_ofAnswer, through_item,
    through_write, through_reporting, through_log, through_pure]
  rfl

theorem through_extend (id : ReservationId) (span : Span) :
    (Service.extend id span).through L = Service.extend id span := by
  simp only [Service.extend, through_bind, through_now, through_inRange, through_log, through_pure]
  rfl

/-- Whatever stands before the ledger, it is asked for the same. -/
theorem Errand.through_request (e : Errand) :
    (e.request (.direct ttl)).through L = e.request (.behind L ttl) := by
  cases e with
  | reservation id => rfl
  | availability p =>
    simp only [request, Service.availability, through_bind, through_itemOf, through_pure]
  | work t =>
    cases t with
    | createItem p units => exact through_createItem p units
    | addStock p units => exact through_changeStock .add _ p units
    | removeStock p units => exact through_changeStock .decrement _ p units
    | reserve p order units span => exact through_reserve p order units span
    | confirm id | release id =>
      simp only [request, Workflow.request, Service.confirm, Service.release, through_bind,
        through_settle, through_pure]
      rfl
    | expire r => exact through_settle .expire r
    | extend id span => exact through_extend id span
    | deleteItem id => exact through_direct (.delete id)
    | bumpItem id => exact through_direct (.bumpVersion id)

end

namespace Realm

/--
The errand names nothing that is not of the realm, and what it may store for the first time gets an
identity of the realm. To remove an item and to bump its version is no errand of anyone.
-/
def concerns (R : Realm) (ids : IdSource) : Errand → Bool
  | .work (.createItem p _) => R.products p && R.items ⟨ids.next.1⟩
  | .work (.addStock p _) | .work (.removeStock p _) | .availability p => R.products p
  | .work (.reserve p order _ _) =>
      R.products p && R.orders order && R.claims ⟨ids.next.1⟩
  | .work (.confirm id) | .work (.release id) | .work (.extend id _) | .reservation id =>
      R.claims id
  | .work (.expire r) => R.claims r.id && R.items r.itemId
  | .work (.deleteItem _) | .work (.bumpItem _) => false

section

variable {R : Realm} {d : Tableau} {ttl : Span} {α : Type}

/-! ## Single requests -/

theorem safe_ask {c : Call} {Q : c.Reply → Tableau → Prop} (hd : R.Ordered d) (hc : R.Owns d c)
    (h : ∀ r e, R.Ordered e → d.answer? c = some (r, e) → Q r e) :
    (Program.ask c).Safe R.setting Q d := by
  rintro _ rfl
  exact ⟨⟨hc.answered, hd, hc⟩, fun r e hr => h r e (hd.answer hc hr) hr⟩

theorem safe_now (hd : R.Ordered d) : Service.now.Safe R.setting (fun _ e => d = e) d := by
  refine Request.safe_lift (safe_ask hd trivial fun r e _ hr => ?_)
  cases hr
  rfl

theorem safe_freshUuid (hd : R.Ordered d) :
    Service.freshUuid.Safe R.setting
      (fun u e => u = d.ids.next.1 ∧ R.Ordered e ∧ e.ledger = d.ledger) d := by
  refine Request.safe_lift (safe_ask hd trivial fun r e he hr => ?_)
  cases hr
  exact ⟨rfl, he, rfl⟩

theorem safe_report {level : LogLevel} {message : String} (hd : R.Ordered d) :
    (Service.log level message).Safe R.setting (fun _ _ => True) d :=
  Request.safe_lift (safe_ask hd trivial fun _ _ _ _ => trivial)

theorem safe_reservations {c : ReservationCall} (hd : R.Ordered d)
    (hc : R.Owns d (.reservations c)) :
    (Service.reservations c).Safe R.setting (fun v e => d.reservations.reply c = .ok v ∧
      R.Ordered e ∧ e = { d with reservations := d.reservations.apply c }) d := by
  refine safe_ask hd hc fun r e he hr => ?_
  cases hr
  exact fun v hv => ⟨hv, he, rfl⟩

theorem safe_ledger {c : LedgerCall} (hd : R.Ordered d) (hc : R.Owns d (.ledger c)) :
    (LedgerAccess.direct c).Safe R.setting (fun r e => r = d.ledger.reply d.now c ∧
      R.Ordered e ∧ e = { d with ledger := d.ledger.apply d.now c }) d := by
  refine safe_ask hd hc fun r e he hr => ?_
  cases hr
  exact ⟨rfl, he, rfl⟩

/-- The item of a product of the realm is an item of the realm. -/
theorem safe_itemOf {p : ProductId} (hd : R.Ordered d) (hp : R.products p = true) :
    ((Service.direct ttl).itemOf p).Safe R.setting
      (fun x e => d = e ∧ d.ledger.items.find? x.id = some x ∧ R.items x.id = true) d := by
  refine (safe_ledger (c := .findByProduct p) hd hp).mono fun r e hr x hx => ?_
  rcases hr with ⟨rfl, -, rfl⟩
  rcases (Reserving.findByProduct_eq_ok_iff hd.indexed).1 hx with ⟨hfind, rfl⟩
  exact ⟨rfl, hfind, (hd.item x.id x hfind).trans hp⟩

theorem safe_item {id : ItemId} (hd : R.Ordered d) (hid : R.items id = true) :
    ((Service.direct ttl).item id).Safe R.setting
      (fun x e => d = e ∧ d.ledger.items.find? x.id = some x ∧ x.id = id) d := by
  refine (safe_ledger (c := .load id) hd hid).mono fun r e hr x hx => ?_
  rcases hr with ⟨rfl, -, rfl⟩
  rcases MemoryLedger.Keyed.find?_of_load hd.indexed.keyed hx with ⟨hfind, hsame⟩
  exact ⟨rfl, hfind, hsame⟩

/-- A changed copy of an item of the realm is written. -/
theorem safe_write {x u : StockItem} {claimed : Int} (hd : R.Ordered d)
    (hx : d.ledger.items.find? x.id = some x) (hitem : R.items x.id = true)
    (hu : x.Changed u claimed) :
    ((Service.direct ttl).write u).Safe R.setting (fun _ e => R.Ordered e) d := by
  have howns : R.Owns d (.ledger (.update u)) := by
    refine ⟨hu.id ▸ hitem, fun stored hstored => ?_⟩
    rw [hu.id, hx] at hstored
    cases hstored
    exact hu.productId
  refine Program.Safe.bind (safe_ledger hd howns) fun r e hr => ?_
  exact fun _ _ => hr.2.1

/-- A claim is written; a refusal is reported and passed on. -/
theorem safe_claim {message : String} {c : ReservationCall} (hd : R.Ordered d)
    (hc : R.Owns d (.reservations c)) :
    (Service.reporting message (Service.reservations c)).Safe R.setting
      (fun _ e => R.Ordered e) d := by
  refine Program.Safe.bind (p := .ask (.reservations c))
    (safe_ask (Q := fun _ e => R.Ordered e) hd hc fun _ _ he _ => he) fun a e he => ?_
  match a with
  | .ok v => exact fun _ _ => he
  | .error f =>
    have hlog : (Program.log .error message).Safe R.setting (fun _ _ => True) e :=
      safe_ask he trivial fun _ _ _ _ => trivial
    exact Program.Safe.bind hlog fun _ _ _ _ hv => nomatch hv

/-! ## Workflows -/

theorem safe_createItem {p : ProductId} {units : Int} (hd : R.Ordered d)
    (hp : R.products p = true) (hid : R.items ⟨d.ids.next.1⟩ = true) :
    ((Service.direct ttl).createItem p units).Safe R.setting (fun _ _ => True) d := by
  refine (safe_freshUuid hd).bind fun u d₁ hu => ?_
  rcases hu with ⟨rfl, hd₁, -⟩
  refine (safe_now hd₁).bind fun t _ h => ?_
  subst h
  refine Request.safe_ofAnswer_bind fun x hx => ?_
  rcases StockItem.create_names hx with ⟨hxid, hxproduct⟩
  have hsave : (Request.ofProgram (LedgerAccess.direct (.save x))).Safe R.setting
      (fun _ e => R.Ordered e) d₁ := by
    have howns : R.Owns d₁ (.ledger (.save x)) := ⟨hxid ▸ hid, hxproduct ▸ hp⟩
    refine (safe_ledger hd₁ howns).mono fun r e hr => ?_
    exact fun _ _ => hr.2.1
  refine hsave.bind fun _ e he => ?_
  exact (safe_report he).bind fun _ _ _ => Request.safe_pure trivial

theorem safe_changeStock {change : StockItem.Change} {message : String} {p : ProductId}
    {units : Int} (hd : R.Ordered d) (hp : R.products p = true) :
    ((Service.direct ttl).changeStock change message p units).Safe R.setting
      (fun _ _ => True) d := by
  refine (safe_itemOf hd hp).bind fun x _ hx => ?_
  rcases hx with ⟨rfl, hfind, hitem⟩
  refine Request.safe_ofAnswer_bind fun u hu => ?_
  refine (safe_write hd hfind hitem (StockItem.apply_ok hu)).bind fun y e he => ?_
  exact (safe_report he).bind fun _ _ _ => Request.safe_pure trivial

theorem safe_ensureUnclaimed {order : OrderId} (hd : R.Ordered d)
    (horder : R.orders order = true) :
    (Service.ensureUnclaimed order).Safe R.setting (fun _ e => d = e) d := by
  refine (safe_reservations (c := .findByOrder order) hd horder).bind fun found e he => ?_
  match found with
  | some r => exact Request.safe_throw
  | none => exact Request.safe_pure he.2.2.symm

theorem safe_reserve {p : ProductId} {order : OrderId} {units : Int} {span : Option Span}
    (hd : R.Ordered d) (hp : R.products p = true) (horder : R.orders order = true)
    (hid : R.claims ⟨d.ids.next.1⟩ = true) :
    ((Service.direct ttl).reserve p order units span).Safe R.setting (fun _ _ => True) d := by
  unfold Service.reserve
  split
  · exact Request.safe_throw
  refine (safe_ensureUnclaimed hd horder).bind fun _ _ h => ?_
  subst h
  refine (safe_itemOf hd hp).bind fun x _ hx => ?_
  rcases hx with ⟨rfl, hfind, hitem⟩
  refine Request.safe_ofAnswer_bind fun u hu => ?_
  have happly : x.apply .reserve units = .ok u := hu
  have hchanged : x.Changed u units := StockItem.apply_ok happly
  refine (safe_now hd).bind fun t _ h => ?_
  subst h
  refine (safe_freshUuid hd).bind fun id d₁ h => ?_
  rcases h with ⟨rfl, hd₁, hledger⟩
  refine safe_inRange_bind trivial fun r hr => ?_
  -- All that the claim names is known by now to be of the realm.
  rcases Reservation.open?_names hr with ⟨hrid, hrorder⟩
  have hritem : r.itemId = x.id := (Reservation.open?_ok hr).2.1.trans hchanged.id
  rw [← hledger] at hfind
  refine (safe_write hd₁ hfind hitem hchanged).bind fun y d₂ hd₂ => ?_
  have howns : R.Owns d₂ (.reservations (.save r)) :=
    ⟨hrid ▸ hid, hrorder ▸ horder, hritem ▸ hitem⟩
  refine (safe_claim hd₂ howns).bind fun _ e he => ?_
  exact (safe_report he).bind fun _ _ _ => Request.safe_pure trivial

theorem safe_settle {k : Settlement} {r : Reservation} (hd : R.Ordered d)
    (hid : R.claims r.id = true) (hitem : R.items r.itemId = true) :
    ((Service.direct ttl).settle k r).Safe R.setting (fun _ _ => True) d := by
  refine (safe_now hd).bind fun t _ h => ?_
  subst h
  refine Request.safe_ofAnswer_bind fun _ _ => ?_
  refine (safe_item hd hitem).bind fun x _ hx => ?_
  rcases hx with ⟨rfl, hfind, hxid⟩
  refine Request.safe_ofAnswer_bind fun u hu => ?_
  refine Request.safe_ofAnswer_bind fun r' hr' => ?_
  have hmoved := (k.transition_ok hr').1
  refine (safe_write hd hfind (hxid ▸ hitem) (StockItem.apply_ok hu)).bind fun y d₁ hd₁ => ?_
  have howns : R.Owns d₁ (.reservations (.update r')) := ⟨hmoved.id ▸ hid, hmoved.itemId ▸ hitem⟩
  refine (safe_claim hd₁ howns).bind fun _ e he => ?_
  exact (safe_report he).bind fun _ _ _ => Request.safe_pure trivial

/-- A stored claim of the realm is about an item of the realm. -/
theorem safe_load {id : ReservationId} (hd : R.Ordered d) (hid : R.claims id = true) :
    (Service.reservations (.load id)).Safe R.setting
      (fun r e => d = e ∧ R.claims r.id = true ∧ R.items r.itemId = true) d := by
  refine (safe_reservations (c := .load id) hd hid).mono fun a e ha r hr => ?_
  rcases ha r hr with ⟨hload, -, rfl⟩
  have hfind : d.reservations.rows.find? id = some r := MemoryReservations.find?_of_load hload
  have hrid : r.id = id := hd.keyed id r hfind
  exact ⟨rfl, hrid ▸ hid, (hd.claim id r hfind).symm.trans hid⟩

theorem safe_load_settle {k : Settlement} {id : ReservationId} (hd : R.Ordered d)
    (hid : R.claims id = true) :
    (do let r ← Service.reservations (.load id)
        let (r, _) ← (Service.direct ttl).settle k r
        return r : Request Reservation).Safe R.setting (fun _ _ => True) d := by
  refine (safe_load hd hid).bind fun r _ h => ?_
  rcases h with ⟨rfl, hrid, hitem⟩
  exact (safe_settle hd hrid hitem).bind fun _ _ _ => Request.safe_pure trivial

theorem safe_extend {id : ReservationId} {span : Span} (hd : R.Ordered d)
    (hid : R.claims id = true) :
    (Service.extend id span).Safe R.setting (fun _ _ => True) d := by
  refine (safe_load hd hid).bind fun r _ h => ?_
  rcases h with ⟨rfl, hrid, hitem⟩
  refine (safe_now hd).bind fun t _ h => ?_
  subst h
  refine safe_inRange_bind trivial fun r' hr' => ?_
  have hmoved := (Reservation.extend?_ok hr').1
  have howns : R.Owns d (.reservations (.update r')) := ⟨hmoved.id ▸ hrid, hmoved.itemId ▸ hitem⟩
  refine (safe_reservations hd howns).bind fun _ e he => ?_
  exact (safe_report he.2.1).bind fun _ _ _ => Request.safe_pure trivial

/-- Whatever an errand of the realm asks is about the realm. -/
theorem safe_errand {t : Errand} (hd : R.Ordered d) (ht : R.concerns d.ids t = true) (ttl : Span) :
    (t.request (.direct ttl)).Safe R.setting (fun _ _ => True) d := by
  cases t with
  | reservation id => exact (safe_load hd ht).mono fun _ _ _ _ _ => trivial
  | availability p => exact (safe_itemOf hd ht).bind fun _ _ _ => Request.safe_pure trivial
  | work t =>
    cases t with
    | createItem p units =>
      rcases Bool.and_eq_true_iff.1 ht with ⟨hp, hid⟩
      exact safe_createItem hd hp hid
    | addStock p units | removeStock p units => exact safe_changeStock hd ht
    | reserve p order units span =>
      rcases Bool.and_eq_true_iff.1 ht with ⟨hnamed, hid⟩
      rcases Bool.and_eq_true_iff.1 hnamed with ⟨hp, horder⟩
      exact safe_reserve hd hp horder hid
    | confirm id | release id => exact safe_load_settle hd ht
    | expire r =>
      rcases Bool.and_eq_true_iff.1 ht with ⟨hid, hitem⟩
      exact safe_settle hd hid hitem
    | extend id span => exact safe_extend hd ht
    | deleteItem id | bumpItem id => cases ht

end
end Realm
end StockLedger
