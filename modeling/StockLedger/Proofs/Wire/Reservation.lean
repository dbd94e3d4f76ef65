import Mathlib.Tactic.Common
import StockLedger.Proofs.Json.RoundTrip
import StockLedger.Proofs.Wire.Leaf
import StockLedger.Wire.Reservation

/-!
# Stored claims read back

* `ReservationRow.ofString?_print` : a row whose quantity fits 64 bits is read back from its text;
* `ReservationRow.toReservation_ofReservation` : the row of a claim is that of this claim;
* `ReservationRow.exists_toReservation_iff` : a row that was read is that of a claim exactly if its
  status is one of the four words and its quantity is positive.
-/

namespace StockLedger

/-! ## Statuses -/

namespace Reservation.Status

theorem ofWord?_word (s : Status) : ofWord? s.word = .ok s := by
  cases s <;> rfl

theorem word_of_ofWord? {word : String} {s : Status} (h : ofWord? word = .ok s) :
    s.word = word := by
  unfold ofWord? at h
  split at h
  · next hfound =>
    cases h
    exact beq_iff_eq.1 (List.find?_some (p := fun s : Status => s.word == word) hfound)
  · cases h

end Reservation.Status

/-! ## Rows -/

namespace ReservationRow

theorem plain_json (r : ReservationRow) : r.json.Plain := by
  refine .object fun f hf => ?_
  simp only [List.mem_cons, List.not_mem_nil, or_false] at hf
  rcases hf with rfl | rfl | rfl | rfl | rfl | rfl | rfl | rfl
  · exact .text _
  · exact .text _
  · exact .text _
  · exact .integer _
  · exact .text _
  · exact .text _
  · exact .text _
  · exact .text _

theorem recordOf?_json (r : ReservationRow) :
    r.json.recordOf? names = some [r.id.uuid.json, r.itemId.uuid.json, r.orderId.uuid.json,
      .integer r.quantity, .str r.status, r.expiresAt.json, r.createdAt.json,
      r.updatedAt.json] := by
  rfl

/-- A row is read back from its JSON. -/
theorem ofJson?_json {r : ReservationRow} (h : Json.Word64 r.quantity) :
    ofJson? r.json = some r := by
  have hstatus : (Json.str r.status).string? = some r.status := rfl
  rw [ofJson?, recordOf?_json]
  simp only [Uuid.ofJson?_json, Timestamp.ofJson?_json, Json.int64?_integer h, hstatus,
    Option.bind_eq_bind, Option.bind_some]

theorem ofString?_print {r : ReservationRow} (h : Json.Word64 r.quantity) :
    ofString? r.json.print = some r := by
  rw [ofString?, Json.ofString?_print r.plain_json, Option.bind_some, ofJson?_json h]

theorem word64_of_ofJson? {j : Json} {r : ReservationRow} (h : ofJson? j = some r) :
    Json.Word64 r.quantity := by
  unfold ofJson? at h
  split at h
  · simp only [Option.bind_eq_bind, Option.bind_eq_some_iff, Option.some.injEq] at h
    obtain ⟨_, -, _, -, _, -, q, hq, _, -, _, -, _, -, _, -, rfl⟩ := h
    exact Json.word64_of_int64? hq
  · cases h

/-- The quantity of a row that was read fits 64 bits with a sign. -/
theorem word64_of_ofString? {text : String} {r : ReservationRow} (h : ofString? text = some r) :
    Json.Word64 r.quantity := by
  obtain ⟨j, -, hj⟩ := Option.bind_eq_some_iff.1 h
  exact word64_of_ofJson? hj

/-! ## Claims -/

theorem word64_ofReservation (c : Reservation) : Json.Word64 (ofReservation c).quantity := by
  have hrange := c.quantity_range
  have hmax : maxUnits = 9223372036854775807 := rfl
  refine ⟨?_, ?_⟩ <;> simp only [ofReservation] <;> omega

theorem toReservation_ofReservation (c : Reservation) :
    (ofReservation c).toReservation = .ok c := by
  simp only [toReservation, ofReservation, Reservation.Status.ofWord?_word]
  exact dif_pos c.quantity_range

/-- Only the row of a claim is accepted as one. -/
theorem eq_ofReservation_of_toReservation {r : ReservationRow} {c : Reservation}
    (h : r.toReservation = .ok c) : r = ofReservation c := by
  unfold toReservation at h
  split at h
  · cases h
  · next status hstatus =>
    unfold Reservation.restore at h
    split at h
    · cases h
      simp only [ofReservation, Reservation.Status.word_of_ofWord? hstatus]
    · cases h

/-- A row is that of a claim exactly if its status is known and its quantity is positive. -/
theorem exists_toReservation_iff {r : ReservationRow} (h : Json.Word64 r.quantity) :
    (∃ c, r.toReservation = .ok c) ↔
      (∃ s : Reservation.Status, r.status = s.word) ∧ 0 < r.quantity := by
  constructor
  · rintro ⟨c, hc⟩
    rw [eq_ofReservation_of_toReservation hc]
    exact ⟨⟨c.status, rfl⟩, c.quantity_range.1⟩
  · rintro ⟨⟨s, hs⟩, hpos⟩
    have hrange : 0 < r.quantity ∧ r.quantity ≤ maxUnits := ⟨hpos, h.2⟩
    let c : Reservation :=
      { id := r.id, itemId := r.itemId, orderId := r.orderId, quantity := r.quantity, status := s
        expiresAt := r.expiresAt, createdAt := r.createdAt, updatedAt := r.updatedAt
        quantity_range := hrange }
    have hrow : r = ofReservation c := by
      simp only [ofReservation, c, ← hs]
    exact ⟨c, by rw [hrow, toReservation_ofReservation]⟩

end ReservationRow
end StockLedger
