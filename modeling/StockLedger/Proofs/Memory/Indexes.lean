import Mathlib.Data.List.Infix
import Mathlib.Tactic.Common
import StockLedger.Proofs.Memory.Items
import StockLedger.Proofs.Memory.Reservations

/-!
# When the indices are exact

Items are found by product, and claims by order, through an index of their own. A write over a
stored value replaces the whole value and leaves the index as it is. So the index is exact as long
as no write gives an item another product, or a claim another order. The first write that does
leaves a look-up that is answered with a value it did not ask for.

* `MemoryLedger.Exact`, `MemoryReservations.Exact` : stored values and index are inverse to each
  other, and look-ups tell the truth;
* `MemoryLedger.Relabels`, `MemoryReservations.Relabels` : a write under another product or order;
* `MemoryLedger.Indexed.indexed_apply_iff`, `MemoryReservations.Indexed.indexed_apply_iff` : what one
  request preserves;
* `forall_prefix_iff` : from one request to all of a list;
* `indexes_exact_iff` : the indices are exact after every request exactly if none relabels.
-/

namespace StockLedger

/-- What holds at first holds all along exactly if no step breaks it. -/
theorem forall_prefix_iff {σ κ : Type} {f : σ → κ → σ} {P : σ → Prop} {b : σ → κ → Prop}
    {s : σ} (hs : P s) (hstep : ∀ s c, P s → (P (f s c) ↔ ¬ b s c)) (cs : List κ) :
    (∀ done, done <+: cs → P (done.foldl f s)) ↔
      ∀ done c, done ++ [c] <+: cs → ¬ b (done.foldl f s) c := by
  constructor
  · intro h done c hdone
    have hbefore : P (done.foldl f s) := h done ((List.prefix_append done [c]).trans hdone)
    have hafter : P ((done ++ [c]).foldl f s) := h (done ++ [c]) hdone
    rw [List.foldl_append] at hafter
    exact (hstep _ c hbefore).1 hafter
  · intro h done
    induction done using List.reverseRecOn with
    | nil => exact fun _ => hs
    | append_singleton done c ih =>
      intro hdone
      have hbefore : P (done.foldl f s) := ih ((List.prefix_append done [c]).trans hdone)
      rw [List.foldl_append]
      exact (hstep _ c hbefore).2 (h done c hdone)

/-! ## Items and products -/

namespace MemoryLedger

variable {l : MemoryLedger} {now : Timestamp} {c : LedgerCall}

/-- Items and index are inverse to each other, and look-ups by product tell the truth. -/
structure Exact (l : MemoryLedger) : Prop where
  inverse : ∀ p id, l.byProduct.find? p = some id ↔
    ∃ s, l.items.find? id = some s ∧ s.productId = p
  single : ∀ i j s t, l.items.find? i = some s → l.items.find? j = some t →
    s.productId = t.productId → i = j
  found : ∀ now p s, l.reply now (.findByProduct p) = .ok s → s.productId = p
  known : ∀ now p, l.reply now (.hasProduct p) = .ok (l.findByProduct p).isOk

/-- The request writes an item of another product over a stored one. -/
def Relabels (l : MemoryLedger) : LedgerCall → Prop
  | .update s => ∃ stored, l.items.find? s.id = some stored ∧ stored.version = s.version ∧
      s.productId ≠ stored.productId
  | _ => False

theorem findByProduct_eq_ok_iff_find? {p : ProductId} {s : StockItem} :
    l.findByProduct p = .ok s ↔ (l.byProduct.find? p).bind l.items.find? = some s := by
  unfold findByProduct
  cases (l.byProduct.find? p).bind l.items.find? <;> simp

theorem isOk_findByProduct (p : ProductId) :
    (l.findByProduct p).isOk = ((l.byProduct.find? p).bind l.items.find?).isSome := by
  unfold findByProduct
  cases (l.byProduct.find? p).bind l.items.find? <;> rfl

theorem Indexed.exact (h : l.Indexed) : l.Exact where
  inverse := by
    intro p id
    constructor
    · exact h.tells p id
    · rintro ⟨s, hs, rfl⟩
      exact h.leads id s hs
  single := by
    intro i j s t hs ht hproduct
    have hi := h.leads i s hs
    have hj := h.leads j t ht
    rw [hproduct] at hi
    exact Option.some.inj (hi.symm.trans hj)
  found := by
    intro now p s hs
    exact ((h.find?_product_iff p).1 (findByProduct_eq_ok_iff_find?.1 hs)).2
  known := by
    intro now p
    rw [isOk_findByProduct, h.isSome_product]
    rfl

theorem Exact.indexed (h : l.Exact) (hkeyed : l.Keyed) : l.Indexed where
  keyed := hkeyed
  leads id s hs := (h.inverse s.productId id).2 ⟨s, hs, rfl⟩
  tells p id hp := (h.inverse p id).1 hp

/-- A request that does not relabel keeps the index in order. -/
theorem Indexed.apply (h : l.Indexed) (hc : ¬ l.Relabels c) : (l.apply now c).Indexed := by
  have ho := l.outcome now c
  generalize l.reply now c = r at ho
  generalize l.apply now c = after at ho ⊢
  cases ho with
  | unchanged => exact h
  | saved s hid hproduct => exact h.save hid hproduct
  | updated s stored hid hversion =>
    have hproduct : s.productId = stored.productId :=
      not_not.1 fun hne => hc ⟨stored, hid, hversion, hne⟩
    exact h.insert (s := advance s now) rfl hid hproduct
  | deleted id s hid => exact h.delete hid
  | bumped id s hid => exact h.insert (s := advance s now) (h.keyed id s hid) hid rfl

/-- After a request that relabels, a look-up leads to an item of another product. -/
theorem Indexed.misled (h : l.Indexed) (hc : l.Relabels c) :
    ∃ p s, (l.apply now c).reply now (.findByProduct p) = .ok s ∧ s.productId ≠ p := by
  cases c with
  | update s =>
    rcases hc with ⟨stored, hid, hversion, hne⟩
    have hleads : (l.apply now (.update s)).byProduct.find? stored.productId = some s.id := by
      rw [apply_update hid hversion]
      exact h.leads s.id stored hid
    refine ⟨stored.productId, advance s now, findByProduct_eq_ok_iff_find?.2 ?_, hne⟩
    rw [hleads, Option.bind_some, find?_of_update hid hversion]
  | load | findByProduct | findMany | findLowStock | count | hasProduct | save | delete
  | bumpVersion => exact hc.elim

theorem Indexed.indexed_apply_iff (h : l.Indexed) :
    (l.apply now c).Indexed ↔ ¬ l.Relabels c := by
  constructor
  · intro hafter hc
    rcases h.misled hc with ⟨p, s, hs, hne⟩
    exact hne (hafter.exact.found now p s hs)
  · exact h.apply

theorem serve_snd (l : MemoryLedger) (requests : List (Timestamp × LedgerCall)) :
    (l.serve requests).2 = requests.foldl (fun l c => l.apply c.1 c.2) l := by
  induction requests generalizing l with
  | nil => rfl
  | cons c rest ih => exact ih (l.apply c.1 c.2)

/-- Items are stored under their identity, whatever is asked. -/
theorem Keyed.serve (h : l.Keyed) (requests : List (Timestamp × LedgerCall)) :
    (l.serve requests).2.Keyed := by
  induction requests generalizing l with
  | nil => exact h
  | cons c rest ih => exact ih (h.outcome (l.outcome c.1 c.2))

/-- The index is exact after every request exactly if none relabels. -/
theorem Indexed.exact_serve_iff (h : l.Indexed) (requests : List (Timestamp × LedgerCall)) :
    (∀ done, done <+: requests → (l.serve done).2.Exact) ↔
      ∀ done c, done ++ [c] <+: requests → ¬ (l.serve done).2.Relabels c.2 := by
  have hexact (done : List (Timestamp × LedgerCall)) :
      (l.serve done).2.Exact ↔ (l.serve done).2.Indexed :=
    ⟨fun hdone => hdone.indexed (h.keyed.serve done), Indexed.exact⟩
  simp only [hexact]
  simp only [serve_snd]
  exact forall_prefix_iff (f := fun l c => l.apply c.1 c.2) (b := fun l c => l.Relabels c.2) h
    (fun _ _ hl => hl.indexed_apply_iff) requests

theorem Exact.misled_serve (hkeyed : l.Keyed) {done : List (Timestamp × LedgerCall)}
    {c : Timestamp × LedgerCall} (h : (l.serve done).2.Exact) (hc : (l.serve done).2.Relabels c.2) :
    ∃ p s, (l.serve (done ++ [c])).2.reply c.1 (.findByProduct p) = .ok s ∧ s.productId ≠ p := by
  have hafter : (l.serve (done ++ [c])).2 = (l.serve done).2.apply c.1 c.2 := by
    rw [serve_snd, List.foldl_append, serve_snd]
    rfl
  rw [hafter]
  exact (h.indexed (hkeyed.serve done)).misled hc

end MemoryLedger

/-! ## Claims and orders -/

namespace MemoryReservations

variable {m : MemoryReservations} {c : ReservationCall}

/-- The claims after requests that are made one after another. -/
def after (m : MemoryReservations) (calls : List ReservationCall) : MemoryReservations :=
  calls.foldl apply m

/-- Claims and index are inverse to each other, and look-ups by order tell the truth. -/
structure Exact (m : MemoryReservations) : Prop where
  inverse : ∀ o id, m.byOrder.find? o = some id ↔
    ∃ r, m.rows.find? id = some r ∧ r.orderId = o
  single : ∀ i j a b, m.rows.find? i = some a → m.rows.find? j = some b →
    a.orderId = b.orderId → i = j
  found : ∀ o r, m.reply (.findByOrder o) = .ok (some r) → r.orderId = o

/-- The request writes a claim of another order over a stored one. -/
def Relabels (m : MemoryReservations) : ReservationCall → Prop
  | .update r => ∃ stored, m.rows.find? r.id = some stored ∧ r.orderId ≠ stored.orderId
  | _ => False

theorem Indexed.exact (h : m.Indexed) : m.Exact where
  inverse := h.order
  single := by
    intro i j a b ha hb horder
    exact (h.single ha hb horder).1
  found := by
    intro o r hr
    have hfind : (m.byOrder.find? o).bind m.rows.find? = some r := Except.ok.inj hr
    rcases Option.bind_eq_some_iff.1 hfind with ⟨id, hid, hrow⟩
    rcases (h.order o id).1 hid with ⟨x, hx, hxo⟩
    cases hrow.symm.trans hx
    exact hxo

theorem Exact.indexed (h : m.Exact) (hkeyed : m.Keyed) : m.Indexed :=
  ⟨hkeyed, h.inverse⟩

/-- A request that does not relabel keeps the index in order. -/
theorem Indexed.apply (h : m.Indexed) (hc : ¬ m.Relabels c) : (m.apply c).Indexed := by
  have ho := m.outcome c
  generalize m.reply c = reply at ho
  generalize m.apply c = after at ho ⊢
  cases ho with
  | unchanged => exact h
  | saved r hid horder => exact h.save hid horder
  | updated r old hid => exact h.update hid (not_not.1 fun hne => hc ⟨old, hid, hne⟩)

/-- After a request that relabels, a look-up leads to a claim of another order. -/
theorem Indexed.misled (h : m.Indexed) (hc : m.Relabels c) :
    ∃ o r, (m.apply c).reply (.findByOrder o) = .ok (some r) ∧ r.orderId ≠ o := by
  cases c with
  | update r =>
    rcases hc with ⟨stored, hid, hne⟩
    have hleads : (m.apply (.update r)).byOrder.find? stored.orderId = some r.id := by
      rw [apply_update hid]
      exact (h.order stored.orderId r.id).2 ⟨stored, hid, rfl⟩
    refine ⟨stored.orderId, r, congrArg Except.ok ?_, hne⟩
    rw [findByOrder, hleads, Option.bind_some, find?_of_update hid]
  | load | findByOrder | save | findExpired | findByItem | count => exact hc.elim

theorem Indexed.indexed_apply_iff (h : m.Indexed) : (m.apply c).Indexed ↔ ¬ m.Relabels c := by
  constructor
  · intro hafter hc
    rcases h.misled hc with ⟨o, r, hr, hne⟩
    exact hne (hafter.exact.found o r hr)
  · exact h.apply

/-- Claims are stored under their identity, whatever is asked. -/
theorem Keyed.after (h : m.Keyed) (calls : List ReservationCall) : (m.after calls).Keyed := by
  induction calls generalizing m with
  | nil => exact h
  | cons c rest ih => exact ih (h.outcome (m.outcome c))

/-- The index is exact after every request exactly if none relabels. -/
theorem Indexed.exact_after_iff (h : m.Indexed) (calls : List ReservationCall) :
    (∀ done, done <+: calls → (m.after done).Exact) ↔
      ∀ done c, done ++ [c] <+: calls → ¬ (m.after done).Relabels c := by
  have hexact (done : List ReservationCall) : (m.after done).Exact ↔ (m.after done).Indexed :=
    ⟨fun hdone => hdone.indexed (h.keyed.after done), Indexed.exact⟩
  simp only [hexact]
  exact forall_prefix_iff h (fun _ _ hm => hm.indexed_apply_iff) calls

theorem Exact.misled_after (hkeyed : m.Keyed) {done : List ReservationCall} {c : ReservationCall}
    (h : (m.after done).Exact) (hc : (m.after done).Relabels c) :
    ∃ o r, (m.after (done ++ [c])).reply (.findByOrder o) = .ok (some r) ∧ r.orderId ≠ o := by
  have hafter : m.after (done ++ [c]) = (m.after done).apply c := by
    rw [after, List.foldl_append]
    rfl
  rw [hafter]
  exact (h.indexed (hkeyed.after done)).misled hc

end MemoryReservations

/--
Requests with any arguments, one after another, to a new ledger and to a new keeper of reservations.
Their indices are exact after every request if and only if no request writes over a stored value one
of another product or another order. The first such request leaves a look-up that is answered with
an item of another product, or with a claim of another order.
-/
theorem indexes_exact_iff (requests : List (Timestamp × LedgerCall))
    (calls : List ReservationCall) :
    (((∀ done, done <+: requests → (MemoryLedger.empty.serve done).2.Exact) ↔
        ∀ done c, done ++ [c] <+: requests →
          ¬ (MemoryLedger.empty.serve done).2.Relabels c.2) ∧
      ∀ done c, done ++ [c] <+: requests → (MemoryLedger.empty.serve done).2.Exact →
        (MemoryLedger.empty.serve done).2.Relabels c.2 → ∃ p s,
          (MemoryLedger.empty.serve (done ++ [c])).2.reply c.1 (.findByProduct p) = .ok s ∧
          s.productId ≠ p) ∧
    ((∀ done, done <+: calls → (MemoryReservations.empty.after done).Exact) ↔
        ∀ done c, done ++ [c] <+: calls →
          ¬ (MemoryReservations.empty.after done).Relabels c) ∧
      ∀ done c, done ++ [c] <+: calls → (MemoryReservations.empty.after done).Exact →
        (MemoryReservations.empty.after done).Relabels c → ∃ o r,
          (MemoryReservations.empty.after (done ++ [c])).reply (.findByOrder o) = .ok (some r) ∧
          r.orderId ≠ o := by
  refine ⟨⟨MemoryLedger.indexed_empty.exact_serve_iff requests, ?_⟩,
    MemoryReservations.indexed_empty.exact_after_iff calls, ?_⟩
  · intro done c _ hexact hc
    exact hexact.misled_serve MemoryLedger.keyed_empty hc
  · intro done c _ hexact hc
    exact hexact.misled_after MemoryReservations.keyed_empty hc

namespace Relabelling

/-- The item of the first product, under another one. -/
def item : StockItem :=
  { StockItem.ten 1 with productId := ⟨.ofNat 2⟩ }

/-- The claim of one order, under another one. -/
def claim : Reservation :=
  { Reservation.four 1 with orderId := ⟨.ofNat 9⟩ }

/-- An item and a claim are stored and then written over: neither index is exact any more. -/
theorem indexes_exact_iff_relabelled :
    (¬ ∀ done, done <+: [(.epoch, .save (.ten 1)), (.epoch, .update item)] →
        (MemoryLedger.empty.serve done).2.Exact) ∧
      ¬ ∀ done, done <+: [.save (.four 1), .update claim] →
        (MemoryReservations.empty.after done).Exact := by
  rcases indexes_exact_iff [(.epoch, .save (.ten 1)), (.epoch, .update item)]
    [.save (.four 1), .update claim] with ⟨⟨hitems, -⟩, hclaims, -⟩
  rw [hitems, hclaims]
  constructor
  · exact fun h => h [(.epoch, .save (.ten 1))] (.epoch, .update item) (List.prefix_refl _)
      ⟨.ten 1, rfl, rfl, by decide⟩
  · exact fun h => h [.save (.four 1)] (.update claim) (List.prefix_refl _)
      ⟨.four 1, rfl, by decide⟩

end Relabelling
end StockLedger
