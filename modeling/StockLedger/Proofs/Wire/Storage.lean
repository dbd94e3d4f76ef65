import Mathlib.Data.List.Forall2
import Mathlib.Tactic.Common
import StockLedger.Proofs.Json.Splice
import StockLedger.Proofs.Wire.Item
import StockLedger.Proofs.Wire.Reservation

/-!
# Storage keeps items and claims

* `ItemRow.toItem_of_not_storable` : an item whose version turns negative is refused when it is
  read back;
* `ItemRow.exists_toItem_iff` : a row that was read is that of an item exactly if its version is not
  negative and its counts are in order;
* `StockItem.decodeAll?_eq_some_iff`, `StockItem.decodeAll?_listed` : a list is read exactly if each
  of its records is;
* `storage_round_trip` : all of it, for items and claims.
-/

namespace StockLedger

/-! ## Rows of items -/

namespace ItemRow

theorem ofString?_encode (s : StockItem) : ofString? s.encode = some (ofItem s) := by
  rw [ofString?, StockItem.encode, Json.ofString?_print (plain_json _), Option.bind_some,
    ofJson?_json (fits_ofItem s)]

theorem fits_of_ofString? {text : String} {r : ItemRow} (h : ofString? text = some r) :
    r.Fits := by
  obtain ⟨j, -, hj⟩ := Option.bind_eq_some_iff.1 h
  exact fits_of_ofJson? hj

theorem toItem_of_not_storable {s : StockItem} (h : ¬ s.Storable) :
    ∃ f, (ofItem s).toItem = .error f ∧ f.code = .corruptRecord := by
  have hneg : (ofItem s).version < 0 := (signed64_neg_iff s.version).2 h
  exact ⟨_, if_pos hneg, rfl⟩

theorem ofItem_of_toItem {r : ItemRow} {s : StockItem} (hr : r.Fits) (h : r.toItem = .ok s) :
    ofItem s = r := by
  refine (eq_ofItem_of_toItem hr.version.2 ?_).symm
  rw [h]
  rfl

theorem exists_toItem_iff {r : ItemRow} (hr : r.Fits) :
    (∃ s, r.toItem = .ok s) ↔ 0 ≤ r.version ∧ 0 ≤ r.reserved ∧ r.reserved ≤ r.quantity := by
  constructor
  · rintro ⟨s, hs⟩
    have hversion : ¬ r.version < 0 := by
      intro hneg
      rw [toItem, if_pos hneg] at hs
      cases hs
    rw [← ofItem_of_toItem hr hs] at hversion ⊢
    exact ⟨Int.not_lt.1 hversion, s.reserved_nonneg, s.reserved_le⟩
  -- a quantity that was read is at most the largest number of units
  · rintro ⟨hversion, hnonneg, hle⟩
    have hrange : 0 ≤ r.reserved ∧ r.reserved ≤ r.quantity ∧ r.quantity ≤ maxUnits :=
      ⟨hnonneg, hle, hr.quantity.2⟩
    rw [toItem, if_neg (Int.not_lt.2 hversion), StockItem.restore, dif_pos hrange]
    exact ⟨_, rfl⟩

end ItemRow

/-! ## Lists of items -/

theorem mapM_eq_some_iff {α β : Type} {f : α → Option β} {xs : List α} {ys : List β} :
    xs.mapM f = some ys ↔ List.Forall₂ (fun x y => f x = some y) xs ys := by
  induction xs generalizing ys with
  | nil => simp [eq_comm]
  | cons x xs ih =>
    rw [List.mapM_cons, List.forall₂_cons_left_iff]
    simp only [Option.bind_eq_bind, Option.bind_eq_some_iff, ih, Option.pure_def,
      Option.some.injEq]
    constructor
    · rintro ⟨y, hy, ys, hys, rfl⟩
      exact ⟨y, ys, hy, hys, rfl⟩
    · rintro ⟨y, ys, hy, hys, rfl⟩
      exact ⟨y, hy, ys, hys, rfl⟩

namespace StockItem

/-- The item of a record. -/
def ofRecord? (j : Json) : Option StockItem :=
  (ItemRow.ofJson? j).bind fun r => r.toItem.toOption

theorem decode?_eq (text : String) : decode? text = (Json.ofString? text).bind ofRecord? := by
  rw [decode?, ItemRow.ofString?, Option.bind_assoc]
  rfl

theorem decodeAll?_of_array {text : String} {js : List Json}
    (h : Json.ofString? text = some (.array js)) : decodeAll? text = js.mapM ofRecord? := by
  rw [decodeAll?, h]
  rfl

/-- A text is read as a list of items exactly if it is an array of which every record is read. -/
theorem decodeAll?_eq_some_iff {text : String} {xs : List StockItem} :
    decodeAll? text = some xs ↔
      ∃ js, Json.ofString? text = some (.array js) ∧
        List.Forall₂ (fun j s => ofRecord? j = some s) js xs := by
  constructor
  · intro h
    obtain ⟨js, hjs, -⟩ := ofString?_of_decodeAll? h
    rw [decodeAll?_of_array hjs] at h
    exact ⟨js, hjs, mapM_eq_some_iff.1 h⟩
  · rintro ⟨js, hjs, hrecords⟩
    rw [decodeAll?_of_array hjs]
    exact mapM_eq_some_iff.2 hrecords

theorem mapM_decode? {texts : List String} {js : List Json}
    (h : List.Forall₂ (fun t j => Json.ofString? t = some j) texts js) :
    texts.mapM decode? = js.mapM ofRecord? := by
  induction h with
  | nil => rfl
  | cons ht _ ih => rw [List.mapM_cons, List.mapM_cons, ih, decode?_eq, ht, Option.bind_some]

/-- A list of records is read exactly if each of them is read on its own. -/
theorem decodeAll?_listed {texts : List String} (h : ∀ t ∈ texts, (Json.ofString? t).isSome) :
    decodeAll? ("[" ++ ",".intercalate texts ++ "]") = texts.mapM decode? := by
  obtain ⟨js, hjs⟩ : ∃ js, List.Forall₂ (fun t j => Json.ofString? t = some j) texts js := by
    induction texts with
    | nil => exact ⟨[], .nil⟩
    | cons t texts ih =>
      obtain ⟨j, hj⟩ := Option.isSome_iff_exists.1 (h t List.mem_cons_self)
      obtain ⟨js, hjs⟩ := ih fun u hu => h u (List.mem_cons_of_mem t hu)
      exact ⟨j :: js, .cons hj hjs⟩
  rw [decodeAll?_of_array (Json.ofString?_listed hjs), mapM_decode? hjs]

end StockItem

/-! ## Round trips -/

/-- Items and claims come back from their texts as they were, save for versions that turn negative;
what any text at all is accepted as has its counts in order and is written back as it was read; and
a list is read exactly if each of its records is. -/
theorem storage_round_trip :
    (∀ s : StockItem, ∃ r, ItemRow.ofString? s.encode = some r ∧
      if s.version.toNat < signBit then r.toItem = .ok s
      else ∃ f, r.toItem = .error f ∧ f.code = .corruptRecord) ∧
    (∀ c : Reservation, ∃ r,
      ReservationRow.ofString? (ReservationRow.ofReservation c).json.print = some r ∧
      r.toReservation = .ok c) ∧
    (∀ text r, ItemRow.ofString? text = some r →
      ((∃ s, r.toItem = .ok s) ↔
        0 ≤ r.version ∧ 0 ≤ r.reserved ∧ r.reserved ≤ r.quantity) ∧
      ∀ s, r.toItem = .ok s → ItemRow.ofItem s = r ∧ ItemRow.ofString? s.encode = some r) ∧
    (∀ text r, ReservationRow.ofString? text = some r →
      ((∃ c, r.toReservation = .ok c) ↔
        (∃ s : Reservation.Status, r.status = s.word) ∧ 0 < r.quantity) ∧
      ∀ c, r.toReservation = .ok c → ReservationRow.ofReservation c = r ∧
        ReservationRow.ofString? (ReservationRow.ofReservation c).json.print = some r) ∧
    (∀ text xs, StockItem.decodeAll? text = some xs ↔
      ∃ js, Json.ofString? text = some (.array js) ∧
        List.Forall₂ (fun j s => StockItem.ofRecord? j = some s) js xs) ∧
    ∀ texts : List String, (∀ t ∈ texts, (Json.ofString? t).isSome) →
      StockItem.decodeAll? ("[" ++ ",".intercalate texts ++ "]") =
        texts.mapM StockItem.decode? := by
  refine ⟨?_, ?_, ?_, ?_, ?_, ?_⟩
  · intro s
    refine ⟨.ofItem s, ItemRow.ofString?_encode s, ?_⟩
    split
    · next h => exact ItemRow.toItem_ofItem h
    · next h => exact ItemRow.toItem_of_not_storable h
  · intro c
    exact ⟨.ofReservation c, ReservationRow.ofString?_print (ReservationRow.word64_ofReservation c),
      ReservationRow.toReservation_ofReservation c⟩
  · intro text r h
    refine ⟨ItemRow.exists_toItem_iff (ItemRow.fits_of_ofString? h), fun s hs => ?_⟩
    have hrow := ItemRow.ofItem_of_toItem (ItemRow.fits_of_ofString? h) hs
    exact ⟨hrow, by rw [ItemRow.ofString?_encode, hrow]⟩
  · intro text r h
    have hquantity := ReservationRow.word64_of_ofString? h
    refine ⟨ReservationRow.exists_toReservation_iff hquantity, fun c hc => ?_⟩
    have hrow := ReservationRow.eq_ofReservation_of_toReservation hc
    refine ⟨hrow.symm, ?_⟩
    rw [← hrow]
    exact ReservationRow.ofString?_print hquantity
  · intro text xs
    exact StockItem.decodeAll?_eq_some_iff
  · intro texts h
    exact StockItem.decodeAll?_listed h

end StockLedger
