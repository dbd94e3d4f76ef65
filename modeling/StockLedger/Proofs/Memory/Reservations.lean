import Mathlib.Tactic.Common
import StockLedger.Memory.Reservations
import StockLedger.Proofs.Table.Changes

/-!
# What requests do to reservations in memory

* `ReservationCall.changes` : does a reply report that the request changed the claims?
* `MemoryReservations.Outcome`, `MemoryReservations.outcome` : all that a request can do;
* `MemoryReservations.Keyed` : claims are stored under their identity;
* `MemoryReservations.Indexed` : what is more, the index leads from each order that has a claim to
  this claim and nowhere else.
-/

namespace StockLedger

/-- Does the reply report that the request was carried out and changed the claims? -/
def ReservationCall.changes : (c : ReservationCall) → c.Reply → Bool
  | save _, .ok _ | update _, .ok _ => true
  | _, _ => false

namespace MemoryReservations

variable {m m' : MemoryReservations}

/-- The replies to a request together with the claims after it. -/
inductive Outcome (m : MemoryReservations) :
    (c : ReservationCall) → c.Reply → MemoryReservations → Prop
  | unchanged (c : ReservationCall) (h : c.changes (m.reply c) = false) :
      Outcome m c (m.reply c) m
  | saved (r : Reservation) (hid : m.rows.find? r.id = none)
      (horder : m.byOrder.find? r.orderId = none) :
      Outcome m (.save r) (.ok ())
        { rows := m.rows.insert r.id r, byOrder := m.byOrder.insert r.orderId r.id }
  | updated (r old : Reservation) (hid : m.rows.find? r.id = some old) :
      Outcome m (.update r) (.ok ()) { m with rows := m.rows.insert r.id r }

/-- A claim is stored whose identity and order are not taken. -/
theorem save_eq {r : Reservation} (hid : m.rows.find? r.id = none)
    (horder : m.byOrder.find? r.orderId = none) :
    m.save r =
      .ok { rows := m.rows.insert r.id r, byOrder := m.byOrder.insert r.orderId r.id } := by
  have hrow := (Table.contains_eq_false_iff ..).2 hid
  have hindex := (Table.contains_eq_false_iff ..).2 horder
  exact if_neg (by rw [hrow, hindex]; exact Bool.false_ne_true)

theorem reply_save {r : Reservation} (hid : m.rows.find? r.id = none)
    (horder : m.byOrder.find? r.orderId = none) : m.reply (.save r) = .ok () := by
  simp [reply, save_eq hid horder, Except.map]

theorem apply_save {r : Reservation} (hid : m.rows.find? r.id = none)
    (horder : m.byOrder.find? r.orderId = none) :
    m.apply (.save r) =
      { rows := m.rows.insert r.id r, byOrder := m.byOrder.insert r.orderId r.id } := by
  simp [apply, save_eq hid horder, Except.toOption]

theorem outcome_save (r : Reservation) :
    Outcome m (.save r) (m.reply (.save r)) (m.apply (.save r)) := by
  by_cases h : (m.rows.contains r.id || m.byOrder.contains r.orderId) = true
  · have hsave : m.save r = .error (duplicate r) := if_pos h
    have happly : m.apply (.save r) = m := by simp [apply, hsave, Except.toOption]
    rw [happly]
    exact .unchanged _ (by simp [reply, hsave, Except.map, ReservationCall.changes])
  · rw [Bool.or_eq_true, not_or, Bool.not_eq_true, Bool.not_eq_true] at h
    have hid := (Table.contains_eq_false_iff ..).1 h.1
    have horder := (Table.contains_eq_false_iff ..).1 h.2
    rw [reply_save hid horder, apply_save hid horder]
    exact .saved r hid horder

theorem outcome_update (r : Reservation) :
    Outcome m (.update r) (m.reply (.update r)) (m.apply (.update r)) := by
  by_cases h : m.rows.contains r.id = true
  · have hupdate : m.update r = .ok { m with rows := m.rows.insert r.id r } := if_pos h
    rcases (Table.contains_eq_true_iff ..).1 h with ⟨old, hold⟩
    have ho : Outcome m (.update r) (.ok ()) { m with rows := m.rows.insert r.id r } :=
      .updated r old hold
    simpa [reply, apply, hupdate, Except.map, Except.toOption] using ho
  · have hupdate : m.update r = .error (.reservationNotFound (aboutReservation r.id)) := if_neg h
    have happly : m.apply (.update r) = m := by simp [apply, hupdate, Except.toOption]
    rw [happly]
    exact .unchanged _ (by simp [reply, hupdate, Except.map, ReservationCall.changes])

/-- A request does one of the things that are listed. -/
theorem outcome (m : MemoryReservations) (c : ReservationCall) :
    Outcome m c (m.reply c) (m.apply c) := by
  cases c with
  | save r => exact outcome_save r
  | update r => exact outcome_update r
  | load | findByOrder | findExpired | findByItem | count => exact .unchanged _ rfl

/-- A request that is refused changes nothing. -/
theorem apply_of_refused {c : ReservationCall} {f : Fault} (h : m.reply c = .error f) :
    m.apply c = m := by
  have ho := m.outcome c
  generalize hr : m.reply c = r at ho h
  generalize m.apply c = after at ho ⊢
  cases ho with
  | unchanged => rfl
  | saved | updated => cases h

/-! ## Identities -/

/-- Claims are stored under their identity. -/
def Keyed (m : MemoryReservations) : Prop :=
  ∀ id r, m.rows.find? id = some r → r.id = id

theorem keyed_empty : empty.Keyed :=
  fun _ _ h => nomatch h

theorem Keyed.outcome (h : m.Keyed) {c : ReservationCall} {reply : c.Reply}
    (ho : Outcome m c reply m') : m'.Keyed := by
  intro id x hx
  cases ho with
  | unchanged => exact h id x hx
  | saved r | updated r =>
    rcases Table.of_find?_insert hx with ⟨rfl, rfl⟩ | ⟨-, hold⟩
    · rfl
    · exact h id x hold

theorem find?_of_load {id : ReservationId} {r : Reservation} (h : m.load id = .ok r) :
    m.rows.find? id = some r := by
  unfold load at h
  split at h
  · next x hx =>
    cases h
    exact hx
  · cases h

/-- A claim that is found is the stored one. -/
theorem Keyed.find?_of_load (h : m.Keyed) {id : ReservationId} {r : Reservation}
    (hr : m.load id = .ok r) : m.rows.find? r.id = some r := by
  have hfind := MemoryReservations.find?_of_load hr
  rw [h id r hfind]
  exact hfind

/-- A claim is written over the one with the same identity. -/
theorem update_eq {r old : Reservation} (h : m.rows.find? r.id = some old) :
    m.update r = .ok { m with rows := m.rows.insert r.id r } :=
  if_pos ((Table.contains_eq_true_iff ..).2 ⟨old, h⟩)

theorem reply_update {r old : Reservation} (h : m.rows.find? r.id = some old) :
    m.reply (.update r) = .ok () := by
  simp [reply, update_eq h, Except.map]

theorem apply_update {r old : Reservation} (h : m.rows.find? r.id = some old) :
    m.apply (.update r) = { m with rows := m.rows.insert r.id r } := by
  simp [apply, update_eq h, Except.toOption]

theorem find?_of_update {r old : Reservation} (h : m.rows.find? r.id = some old) :
    (m.apply (.update r)).rows.find? r.id = some r := by
  rw [apply_update h, Table.find?_insert, if_pos rfl]

theorem find?_of_written {r : Reservation} (h : m.reply (.update r) = .ok ()) :
    (m.apply (.update r)).rows.find? r.id = some r := by
  have ho := outcome_update (m := m) r
  generalize m.reply (.update r) = reply at ho h
  generalize m.apply (.update r) = after at ho ⊢
  cases ho with
  | unchanged _ hchanges =>
    rw [h] at hchanges
    cases hchanges
  | updated => exact (Table.find?_insert ..).trans (if_pos rfl)

/-- A write over a claim concerns no other claim. -/
theorem find?_update_of_ne {r : Reservation} {id : ReservationId} (hid : id ≠ r.id) :
    (m.apply (.update r)).rows.find? id = m.rows.find? id := by
  have ho := outcome_update (m := m) r
  generalize m.reply (.update r) = reply at ho
  generalize m.apply (.update r) = after at ho ⊢
  cases ho with
  | unchanged => rfl
  | updated => rw [Table.find?_insert, if_neg hid]

/-! ## The index of orders -/

/-- The index leads from each order that has a claim to this claim, and nowhere else. -/
structure Indexed (m : MemoryReservations) : Prop where
  keyed : m.Keyed
  order : ∀ o id, m.byOrder.find? o = some id ↔ ∃ r, m.rows.find? id = some r ∧ r.orderId = o

theorem indexed_empty : empty.Indexed :=
  ⟨keyed_empty, fun _ _ => ⟨fun h => (nomatch h), fun ⟨_, h, _⟩ => nomatch h⟩⟩

/-- No order has two claims. -/
theorem Indexed.single (h : m.Indexed) {i j : ReservationId} {a b : Reservation}
    (ha : m.rows.find? i = some a) (hb : m.rows.find? j = some b) (horder : a.orderId = b.orderId) :
    i = j ∧ a = b := by
  have hi := (h.order a.orderId i).2 ⟨a, ha, rfl⟩
  have hj := (h.order a.orderId j).2 ⟨b, hb, horder.symm⟩
  cases hi.symm.trans hj
  exact ⟨rfl, Option.some.inj (ha.symm.trans hb)⟩

theorem Indexed.save (h : m.Indexed) {r : Reservation} (hid : m.rows.find? r.id = none)
    (horder : m.byOrder.find? r.orderId = none) :
    Indexed { rows := m.rows.insert r.id r, byOrder := m.byOrder.insert r.orderId r.id } where
  keyed := h.keyed.outcome (.saved r hid horder)
  order o id := by
    rw [Table.find?_insert, Table.find?_insert]
    by_cases ho : o = r.orderId
    · rw [if_pos ho]
      constructor
      · rintro ⟨⟩
        exact ⟨r, if_pos rfl, ho.symm⟩
      · rintro ⟨x, hx, hxo⟩
        by_cases hxid : id = r.id
        · rw [hxid]
        · -- The order had no claim before.
          rw [if_neg hxid] at hx
          have hleads := (h.order o id).2 ⟨x, hx, hxo⟩
          rw [ho, horder] at hleads
          cases hleads
    · rw [if_neg ho, h.order o id]
      refine exists_congr fun x => and_congr_left fun hxo => ?_
      by_cases hxid : id = r.id
      · rw [if_pos hxid, hxid, hid]
        refine ⟨fun hx => (nomatch hx), ?_⟩
        rintro ⟨⟩
        exact absurd hxo.symm ho
      · rw [if_neg hxid]

/-- Writing a claim of the same order over a stored one leaves the index in order. -/
theorem Indexed.update (h : m.Indexed) {r old : Reservation} (hold : m.rows.find? r.id = some old)
    (horder : r.orderId = old.orderId) : Indexed { m with rows := m.rows.insert r.id r } where
  keyed := h.keyed.outcome (.updated r old hold)
  order o id := by
    rw [h.order o id, Table.find?_insert]
    by_cases hid : id = r.id
    · rw [if_pos hid, hid, hold]
      constructor
      · rintro ⟨_, ⟨⟩, rfl⟩
        exact ⟨r, rfl, horder⟩
      · rintro ⟨_, ⟨⟩, rfl⟩
        exact ⟨old, rfl, horder.symm⟩
    · rw [if_neg hid]

end MemoryReservations

/-- A pending claim on four units of the item with a given number. -/
def Reservation.four (n : Nat) : Reservation where
  id := ⟨.ofNat (n + 1)⟩
  itemId := ⟨.ofNat n⟩
  orderId := ⟨.ofNat (n + 2)⟩
  quantity := 4
  status := .pending
  expiresAt := (Timestamp.epoch.add? Reservation.defaultTtl).getD .epoch
  createdAt := .epoch
  updatedAt := .epoch
  quantity_range := by decide

end StockLedger
