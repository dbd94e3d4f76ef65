import Mathlib.Tactic.Common
import StockLedger.Proofs.Memory.Ledger
import StockLedger.Proofs.Memory.Reservations
import StockLedger.Proofs.Rehearsal.Steady

/-!
# Realms of products

Some products, and all that belongs to them. What belongs to the other products is a realm as well,
so that whatever is shown of one realm is known of both.

* `Realm`, `Realm.others` : identities that belong together, and all others;
* `Realm.Ordered` : no row belongs to two realms;
* `Realm.Same` : two tableaus with the same rows in a realm;
* `Realm.Owns` : the requests that are about a realm;
* `Realm.Ordered.answer`, `Realm.same_answer`, `Realm.Abreast.answer` : such a request keeps the rows
  in order, leaves the other realm as it is, and is answered from its own realm;
* `Realm.ordered_run`, `Realm.same_run`, `Realm.Abreast.run` : the same of programs.
-/

namespace StockLedger

/-! ## Realms -/

/-- Some products, with the items, the orders and the claims that are theirs. -/
structure Realm where
  products : ProductId → Bool
  items : ItemId → Bool
  orders : OrderId → Bool
  claims : ReservationId → Bool

namespace Realm

variable {R : Realm} {d d' e e' f : Tableau} {c : Call}

/-- What belongs to the other products. -/
def others (R : Realm) : Realm where
  products p := !R.products p
  items i := !R.items i
  orders o := !R.orders o
  claims i := !R.claims i

theorem others_others (R : Realm) : R.others.others = R := by
  simp [others]

/-- The indices are in order, and each row and each index belongs to one realm. -/
structure Ordered (R : Realm) (d : Tableau) : Prop where
  indexed : d.ledger.Indexed
  keyed : d.reservations.Keyed
  item : ∀ id x, d.ledger.items.find? id = some x → R.items id = R.products x.productId
  claim : ∀ id r, d.reservations.rows.find? id = some r → R.claims id = R.items r.itemId
  order : ∀ o id, d.reservations.byOrder.find? o = some id → R.orders o = R.claims id

/-- The rows of a realm, and what the indices have for it, are the same. -/
structure Same (R : Realm) (d e : Tableau) : Prop where
  item : ∀ id, R.items id = true → d.ledger.items.find? id = e.ledger.items.find? id
  lead : ∀ p, R.products p = true → d.ledger.byProduct.find? p = e.ledger.byProduct.find? p
  claim : ∀ id, R.claims id = true → d.reservations.rows.find? id = e.reservations.rows.find? id
  order : ∀ o, R.orders o = true →
    d.reservations.byOrder.find? o = e.reservations.byOrder.find? o

theorem Ordered.others (h : R.Ordered d) : R.others.Ordered d where
  indexed := h.indexed
  keyed := h.keyed
  item id x hx := congrArg not (h.item id x hx)
  claim id r hr := congrArg not (h.claim id r hr)
  order o id ho := congrArg not (h.order o id ho)

theorem Same.refl (R : Realm) (d : Tableau) : R.Same d d :=
  ⟨fun _ _ => rfl, fun _ _ => rfl, fun _ _ => rfl, fun _ _ => rfl⟩

theorem Same.symm (h : R.Same d e) : R.Same e d :=
  ⟨fun i hi => (h.item i hi).symm, fun p hp => (h.lead p hp).symm,
    fun i hi => (h.claim i hi).symm, fun o ho => (h.order o ho).symm⟩

theorem Same.trans (h : R.Same d e) (h' : R.Same e f) : R.Same d f :=
  ⟨fun i hi => (h.item i hi).trans (h'.item i hi), fun p hp => (h.lead p hp).trans (h'.lead p hp),
    fun i hi => (h.claim i hi).trans (h'.claim i hi),
    fun o ho => (h.order o ho).trans (h'.order o ho)⟩

/-- No identity belongs to both realms. -/
theorem ne_of_others {κ : Type} {p : κ → Bool} {i j : κ} (hi : (!p i) = true) (hj : p j = true) :
    i ≠ j := by
  rintro rfl
  rw [hj] at hi
  cases hi

/-! ## Requests about a realm -/

/-- The request names nothing that is not of the realm, and gives no item to another product. -/
def Owns (R : Realm) (d : Tableau) : Call → Prop
  | .ledger (.load id) => R.items id = true
  | .ledger (.findByProduct p) => R.products p = true
  | .ledger (.save x) => R.items x.id = true ∧ R.products x.productId = true
  | .ledger (.update u) => R.items u.id = true ∧ d.ledger.KeepsProduct (.update u)
  | .reservations (.load id) => R.claims id = true
  | .reservations (.findByOrder o) => R.orders o = true
  | .reservations (.save r) =>
      R.claims r.id = true ∧ R.orders r.orderId = true ∧ R.items r.itemId = true
  | .reservations (.update r) => R.claims r.id = true ∧ R.items r.itemId = true
  | .now | .freshUuid | .log _ => True
  | _ => False

theorem Owns.keepsProduct {q : LedgerCall} (h : R.Owns d (.ledger q)) :
    d.ledger.KeepsProduct q := by
  cases q with
  | update u => exact h.2
  | _ => exact trivial

theorem Owns.answered (h : R.Owns d c) : (d.answer? c).isSome := by
  cases c with
  | ledger | reservations | now | freshUuid | log => rfl
  | _ => exact h.elim

/-! ### What a request leaves in order -/

theorem Ordered.ledger {c : LedgerCall} (h : R.Ordered d) (hc : R.Owns d (.ledger c)) :
    R.Ordered { d with ledger := d.ledger.apply d.now c } := by
  have hindexed := h.indexed.outcome hc.keepsProduct (d.ledger.outcome d.now c)
  have ho := d.ledger.outcome d.now c
  generalize d.ledger.reply d.now c = r at ho
  generalize d.ledger.apply d.now c = l' at ho hindexed ⊢
  refine ⟨hindexed, h.keyed, fun id x hx => ?_, h.claim, h.order⟩
  cases ho with
  | unchanged => exact h.item id x hx
  | saved y =>
    rcases Table.of_find?_insert hx with ⟨rfl, rfl⟩ | ⟨-, hold⟩
    · exact hc.1.trans hc.2.symm
    · exact h.item id x hold
  | updated u stored hstored =>
    rcases Table.of_find?_insert hx with ⟨rfl, rfl⟩ | ⟨-, hold⟩
    · have hproduct : u.productId = stored.productId := hc.2 stored hstored
      exact (h.item u.id stored hstored).trans (congrArg R.products hproduct.symm)
    · exact h.item id x hold
  | deleted => exact hc.elim
  | bumped => exact hc.elim

theorem Ordered.reservations {c : ReservationCall} (h : R.Ordered d)
    (hc : R.Owns d (.reservations c)) :
    R.Ordered { d with reservations := d.reservations.apply c } := by
  have hkeyed := h.keyed.outcome (d.reservations.outcome c)
  have ho := d.reservations.outcome c
  generalize d.reservations.reply c = r at ho
  generalize d.reservations.apply c = m' at ho hkeyed ⊢
  refine ⟨h.indexed, hkeyed, h.item, fun id x hx => ?_, fun o id hid => ?_⟩
  · cases ho with
    | unchanged => exact h.claim id x hx
    | saved y =>
      rcases Table.of_find?_insert hx with ⟨rfl, rfl⟩ | ⟨-, hold⟩
      · exact hc.1.trans hc.2.2.symm
      · exact h.claim id x hold
    | updated y =>
      rcases Table.of_find?_insert hx with ⟨rfl, rfl⟩ | ⟨-, hold⟩
      · exact hc.1.trans hc.2.symm
      · exact h.claim id x hold
  · cases ho with
    | unchanged => exact h.order o id hid
    | saved y =>
      rcases Table.of_find?_insert hid with ⟨rfl, rfl⟩ | ⟨-, hold⟩
      · exact hc.2.1.trans hc.1.symm
      · exact h.order o id hold
    | updated => exact h.order o id hid

theorem Ordered.answer {r : c.Reply} (h : R.Ordered d) (hc : R.Owns d c)
    (hr : d.answer? c = some (r, d')) : R.Ordered d' := by
  cases c with
  | ledger c => cases hr; exact h.ledger hc
  | reservations c => cases hr; exact h.reservations hc
  | now | log => cases hr; exact h
  | freshUuid => cases hr; exact ⟨h.indexed, h.keyed, h.item, h.claim, h.order⟩
  | _ => exact hc.elim

/-! ### What a request leaves alone -/

theorem same_ledger {c : LedgerCall} (hc : R.others.Owns d (.ledger c)) :
    R.Same d { d with ledger := d.ledger.apply d.now c } := by
  have ho := d.ledger.outcome d.now c
  generalize d.ledger.reply d.now c = r at ho
  generalize d.ledger.apply d.now c = l' at ho ⊢
  cases ho with
  | unchanged => exact .refl R d
  | saved y =>
    refine ⟨fun id hid => ?_, fun p hp => ?_, fun _ _ => rfl, fun _ _ => rfl⟩
    · exact ((Table.find?_insert ..).trans (if_neg (ne_of_others hc.1 hid).symm)).symm
    · exact ((Table.find?_insert ..).trans (if_neg (ne_of_others hc.2 hp).symm)).symm
  | updated u =>
    refine ⟨fun id hid => ?_, fun _ _ => rfl, fun _ _ => rfl, fun _ _ => rfl⟩
    exact ((Table.find?_insert ..).trans (if_neg (ne_of_others hc.1 hid).symm)).symm
  | deleted => exact hc.elim
  | bumped => exact hc.elim

theorem same_reservations {c : ReservationCall} (hc : R.others.Owns d (.reservations c)) :
    R.Same d { d with reservations := d.reservations.apply c } := by
  have ho := d.reservations.outcome c
  generalize d.reservations.reply c = r at ho
  generalize d.reservations.apply c = m' at ho ⊢
  cases ho with
  | unchanged => exact .refl R d
  | saved y =>
    refine ⟨fun _ _ => rfl, fun _ _ => rfl, fun id hid => ?_, fun o ho => ?_⟩
    · exact ((Table.find?_insert ..).trans (if_neg (ne_of_others hc.1 hid).symm)).symm
    · exact ((Table.find?_insert ..).trans (if_neg (ne_of_others hc.2.1 ho).symm)).symm
  | updated y =>
    refine ⟨fun _ _ => rfl, fun _ _ => rfl, fun id hid => ?_, fun _ _ => rfl⟩
    exact ((Table.find?_insert ..).trans (if_neg (ne_of_others hc.1 hid).symm)).symm

/-- A request about the other products leaves the realm as it is. -/
theorem same_answer {r : c.Reply} (hc : R.others.Owns d c) (hr : d.answer? c = some (r, d')) :
    R.Same d d' := by
  cases c with
  | ledger c => cases hr; exact same_ledger hc
  | reservations c => cases hr; exact same_reservations hc
  | now | log => cases hr; exact .refl R d
  | freshUuid =>
    cases hr
    exact ⟨fun _ _ => rfl, fun _ _ => rfl, fun _ _ => rfl, fun _ _ => rfl⟩
  | _ => exact hc.elim

/-! ### What a request depends on -/

/-- The same rows of a realm, the same time and the same identities to come. -/
structure Abreast (R : Realm) (d e : Tableau) : Prop extends R.Same d e where
  now : d.now = e.now
  ids : d.ids = e.ids

theorem Abreast.ledger {c : LedgerCall} (h : R.Abreast d e) (hd : R.Ordered d)
    (hc : R.Owns d (.ledger c)) (now : Timestamp) :
    d.ledger.reply now c = e.ledger.reply now c ∧
      R.Abreast { d with ledger := d.ledger.apply now c }
        { e with ledger := e.ledger.apply now c } := by
  cases c with
  | load id =>
    refine ⟨?_, h⟩
    show d.ledger.load id = e.ledger.load id
    rw [MemoryLedger.load, MemoryLedger.load, h.item id hc]
  | findByProduct p =>
    refine ⟨?_, h⟩
    show d.ledger.findByProduct p = e.ledger.findByProduct p
    have hlead : (d.ledger.byProduct.find? p).bind d.ledger.items.find? =
        (e.ledger.byProduct.find? p).bind e.ledger.items.find? := by
      rw [← h.lead p hc]
      refine Option.bind_congr fun id hid => h.item id ?_
      -- The index leads to an item of this product.
      rcases hd.indexed.tells p id hid with ⟨x, hx, rfl⟩
      exact (hd.item id x hx).trans hc
    rw [MemoryLedger.findByProduct, MemoryLedger.findByProduct, hlead]
  | save x =>
    have hclash : (e.ledger.items.contains x.id || e.ledger.byProduct.contains x.productId) =
        (d.ledger.items.contains x.id || d.ledger.byProduct.contains x.productId) := by
      rw [Table.contains_congr (h.item x.id hc.1),
        Table.contains_congr (h.lead x.productId hc.2)]
    have he := e.ledger.save_cases now x
    rw [hclash] at he
    rcases d.ledger.save_cases now x with ⟨htrue, hreply, happly⟩ | ⟨hfalse, hreply, happly⟩
    · rcases he with ⟨-, hreply', happly'⟩ | ⟨hfalse, -⟩
      · rw [happly, happly']
        exact ⟨hreply.trans hreply'.symm, h⟩
      · cases htrue.symm.trans hfalse
    · rcases he with ⟨htrue, -⟩ | ⟨-, hreply', happly'⟩
      · cases htrue.symm.trans hfalse
      · rw [happly, happly']
        exact ⟨hreply.trans hreply'.symm, ⟨Table.insert_congr h.item _ _,
          Table.insert_congr h.lead _ _, h.claim, h.order⟩, h.now, h.ids⟩
  | update u =>
    obtain ⟨hreply, ⟨happly, happly'⟩ | ⟨x, happly, happly'⟩⟩ :=
      MemoryLedger.update_congr (h.item u.id hc.1) now <;> rw [happly, happly']
    · exact ⟨hreply, h⟩
    · exact ⟨hreply, ⟨Table.insert_congr h.item _ _, h.lead, h.claim, h.order⟩, h.now, h.ids⟩
  | _ => exact hc.elim

theorem Abreast.reservations {c : ReservationCall} (h : R.Abreast d e) (hd : R.Ordered d)
    (hc : R.Owns d (.reservations c)) :
    d.reservations.reply c = e.reservations.reply c ∧
      R.Abreast { d with reservations := d.reservations.apply c }
        { e with reservations := e.reservations.apply c } := by
  cases c with
  | load id =>
    refine ⟨?_, h⟩
    show d.reservations.load id = e.reservations.load id
    rw [MemoryReservations.load, MemoryReservations.load, h.claim id hc]
  | findByOrder o =>
    refine ⟨congrArg Except.ok ?_, h⟩
    show (d.reservations.byOrder.find? o).bind d.reservations.rows.find? =
      (e.reservations.byOrder.find? o).bind e.reservations.rows.find?
    rw [← h.order o hc]
    exact Option.bind_congr fun id hid => h.claim id ((hd.order o id hid).symm.trans hc)
  | save x =>
    have hclash : (e.reservations.rows.contains x.id || e.reservations.byOrder.contains x.orderId) =
        (d.reservations.rows.contains x.id || d.reservations.byOrder.contains x.orderId) := by
      rw [Table.contains_congr (h.claim x.id hc.1),
        Table.contains_congr (h.order x.orderId hc.2.1)]
    simp only [MemoryReservations.reply, MemoryReservations.apply, MemoryReservations.save, hclash]
    split
    · exact ⟨rfl, h⟩
    · exact ⟨rfl, ⟨h.item, h.lead, Table.insert_congr h.claim _ _,
        Table.insert_congr h.order _ _⟩, h.now, h.ids⟩
  | update x =>
    have hstored := Table.contains_congr (h.claim x.id hc.1)
    simp only [MemoryReservations.reply, MemoryReservations.apply, MemoryReservations.update,
      hstored]
    split
    · exact ⟨rfl, ⟨h.item, h.lead, Table.insert_congr h.claim _ _, h.order⟩, h.now, h.ids⟩
    · exact ⟨rfl, h⟩
  | _ => exact hc.elim

/-- A request about the realm is answered from it. -/
theorem Abreast.answer {r : c.Reply} (h : R.Abreast d e) (hd : R.Ordered d) (hc : R.Owns d c)
    (hr : d.answer? c = some (r, d')) : ∃ e', e.answer? c = some (r, e') ∧ R.Abreast d' e' := by
  cases c with
  | ledger c =>
    cases hr
    rcases h.ledger hd hc d.now with ⟨hreply, hafter⟩
    refine ⟨_, ?_, hafter⟩
    rw [Tableau.answer?, ← h.now, hreply]
  | reservations c =>
    cases hr
    rcases h.reservations hd hc with ⟨hreply, hafter⟩
    rw [hreply]
    exact ⟨_, rfl, hafter⟩
  | now =>
    cases hr
    rw [h.now]
    exact ⟨_, rfl, h⟩
  | freshUuid =>
    cases hr
    rw [h.ids]
    exact ⟨_, rfl, ⟨h.item, h.lead, h.claim, h.order⟩, h.now, rfl⟩
  | log entry =>
    cases hr
    exact ⟨_, rfl, h⟩
  | _ => exact hc.elim

/-! ## Programs about a realm -/

/-- A program is alone, and all that it asks is about the realm. -/
abbrev setting (R : Realm) : Setting Tableau :=
  Tableau.setting fun d c => R.Ordered d ∧ R.Owns d c

section Programs

variable {α : Type} {Q : α → Tableau → Prop} {p : Program α} {next : c.Reply → Program α}

theorem of_safe_call (h : (Program.call c next).Safe R.setting Q d) :
    R.Ordered d ∧ R.Owns d c ∧
      ∃ r e, d.answer? c = some (r, e) ∧ (next r).Safe R.setting Q e := by
  obtain ⟨⟨hsome, hordered, howns⟩, hnext⟩ := h d rfl
  obtain ⟨⟨r, e⟩, hr⟩ := Option.isSome_iff_exists.1 hsome
  exact ⟨hordered, howns, r, e, hr, hnext r e hr⟩

theorem ordered_run (hd : R.Ordered d) (h : p.Safe R.setting Q d) : R.Ordered (d.run p).2 := by
  induction p generalizing d with
  | done a => exact hd
  | abort => exact hd
  | call c next ih =>
    rcases of_safe_call h with ⟨hordered, howns, r, e, hr, hnext⟩
    rw [Tableau.run_call hr]
    exact ih r (hordered.answer howns hr) hnext

/-- A program about the other products leaves the realm as it is. -/
theorem same_run (h : p.Safe R.others.setting Q d) : R.Same d (d.run p).2 := by
  induction p generalizing d with
  | done a => exact .refl R d
  | abort => exact .refl R d
  | call c next ih =>
    rcases of_safe_call h with ⟨-, howns, r, e, hr, hnext⟩
    rw [Tableau.run_call hr]
    exact (same_answer howns hr).trans (ih r hnext)

/-- A program about the realm ends in the same way wherever the realm is the same. -/
theorem Abreast.run (h : R.Abreast d e) (hp : p.Safe R.setting Q d) :
    (d.run p).1 = (e.run p).1 ∧ R.Abreast (d.run p).2 (e.run p).2 := by
  induction p generalizing d e with
  | done a => exact ⟨rfl, h⟩
  | abort => exact ⟨rfl, h⟩
  | call c next ih =>
    rcases of_safe_call hp with ⟨hordered, howns, r, d', hr, hnext⟩
    rcases h.answer hordered howns hr with ⟨e', hr', h'⟩
    rw [Tableau.run_call hr, Tableau.run_call hr']
    exact ih r h' hnext

end Programs
end Realm
end StockLedger
