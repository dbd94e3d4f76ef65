import Mathlib.Tactic.Common
import StockLedger.Proofs.Json.RoundTrip
import StockLedger.Proofs.Wire.Leaf
import StockLedger.Proofs.Wire.Signed
import StockLedger.Wire.Item

/-!
# Stored stock items read back

* `StockItem.decode?_encode` : an item is read back from its text exactly if its version fits a
  signed number of 64 bits;
* `StockItem.decodeAll?_encodeAll` : so is a list of such items, and no list with another item;
* `StockItem.ofString?_of_decode?`, `StockItem.ofString?_of_decodeAll?` : nothing is read that is
  not the row of an item.
-/

namespace StockLedger

/-! ## Versions -/

/-- The version of the item survives in a signed number of 64 bits. -/
def StockItem.Storable (s : StockItem) : Prop :=
  s.version.toNat < signBit

instance (s : StockItem) : Decidable s.Storable :=
  inferInstanceAs (Decidable (s.version.toNat < signBit))

/-! ## Rows -/

namespace ItemRow

/-- The counts and the version of a row fit 64 bits with a sign. -/
structure Fits (r : ItemRow) : Prop where
  quantity : -9223372036854775808 ≤ r.quantity ∧ r.quantity ≤ 9223372036854775807
  reserved : -9223372036854775808 ≤ r.reserved ∧ r.reserved ≤ 9223372036854775807
  version : -9223372036854775808 ≤ r.version ∧ r.version ≤ 9223372036854775807

theorem fits_ofItem (s : StockItem) : (ofItem s).Fits := by
  have h0 := s.reserved_nonneg
  have h1 := s.reserved_le
  have h2 := s.quantity_le
  have hmax : maxUnits = 9223372036854775807 := rfl
  refine ⟨?_, ?_, signed64_mem s.version⟩ <;> simp only [ofItem] <;> omega

theorem plain_json (r : ItemRow) : r.json.Plain := by
  refine .object fun f hf => ?_
  simp only [List.mem_cons, List.not_mem_nil, or_false] at hf
  rcases hf with rfl | rfl | rfl | rfl | rfl | rfl | rfl
  · exact .text _
  · exact .text _
  · exact .integer _
  · exact .integer _
  · exact .integer _
  · exact .text _
  · exact .text _

theorem recordOf?_json (r : ItemRow) :
    r.json.recordOf? names = some [r.id.uuid.json, r.productId.uuid.json, .integer r.quantity,
      .integer r.reserved, .integer r.version, r.createdAt.json, r.updatedAt.json] := by
  rfl

/-- A row is read back from its JSON. -/
theorem ofJson?_json {r : ItemRow} (h : r.Fits) : ofJson? r.json = some r := by
  rw [ofJson?, recordOf?_json]
  simp only [Uuid.ofJson?_json, Timestamp.ofJson?_json, Json.int64?_integer h.quantity,
    Json.int64?_integer h.reserved, Json.int64?_integer h.version, Option.bind_eq_bind,
    Option.bind_some]

theorem toItem_ofItem {s : StockItem} (h : s.Storable) : (ofItem s).toItem = .ok s := by
  have hneg : ¬ (ofItem s).version < 0 := fun hlt => (signed64_neg_iff s.version).1 hlt h
  have hrange : 0 ≤ s.reserved ∧ s.reserved ≤ s.quantity ∧ s.quantity ≤ maxUnits :=
    ⟨s.reserved_nonneg, s.reserved_le, s.quantity_le⟩
  rw [toItem, if_neg hneg, StockItem.restore]
  simp only [ofItem, dif_pos hrange, ofNat_toNat_signed64 h]

/-- The row of an item is that of an item exactly if its version is not negative. -/
theorem toOption_toItem_ofItem (s : StockItem) :
    (ofItem s).toItem.toOption = if s.Storable then some s else none := by
  by_cases h : s.Storable
  · rw [if_pos h, toItem_ofItem h]
    rfl
  · have hneg : (ofItem s).version < 0 := (signed64_neg_iff s.version).2 h
    rw [if_neg h, toItem, if_pos hneg]
    rfl

/-- The counts and the version of a row that was read fit 64 bits with a sign. -/
theorem fits_of_ofJson? {j : Json} {r : ItemRow} (h : ofJson? j = some r) : r.Fits := by
  unfold ofJson? at h
  split at h
  · simp only [Option.bind_eq_bind, Option.bind_eq_some_iff, Option.some.injEq] at h
    obtain ⟨_, -, _, -, _, hquantity, _, hreserved, _, hversion, _, -, _, -, rfl⟩ := h
    exact ⟨Json.word64_of_int64? hquantity, Json.word64_of_int64? hreserved,
      Json.word64_of_int64? hversion⟩
  · cases h

/-- Only the row of an item is accepted as one. -/
theorem eq_ofItem_of_toItem {r : ItemRow} {s : StockItem}
    (hv : r.version ≤ 9223372036854775807) (h : r.toItem.toOption = some s) : r = ofItem s := by
  unfold toItem at h
  split at h
  · cases h
  · rename_i hneg
    have hbit : signBit = 9223372036854775808 := rfl
    have hstorable : (UInt64.ofNat r.version.toNat).toNat < signBit := by
      rw [UInt64.toNat_ofNat']
      omega
    have hversion : signed64 (UInt64.ofNat r.version.toNat) = r.version := by
      rw [signed64_of_lt hstorable, UInt64.toNat_ofNat']
      omega
    unfold StockItem.restore at h
    split at h
    · cases h
      simp only [ofItem, hversion]
    · cases h

theorem ofJson?_of_accepted {j : Json} {s : StockItem}
    (h : ((ofJson? j).bind fun r => r.toItem.toOption) = some s) :
    ofJson? j = some (ofItem s) := by
  obtain ⟨r, hr, hitem⟩ := Option.bind_eq_some_iff.1 h
  rw [hr, eq_ofItem_of_toItem (fits_of_ofJson? hr).version.2 hitem]

end ItemRow

/-! ## Items -/

namespace StockItem

/-- An item is read back from its text exactly if its version can be stored. -/
theorem decode?_encode (s : StockItem) :
    decode? s.encode = if s.Storable then some s else none := by
  rw [decode?, ItemRow.ofString?, encode, Json.ofString?_print (ItemRow.plain_json _),
    Option.bind_some, ItemRow.ofJson?_json (ItemRow.fits_ofItem s), Option.bind_some,
    ItemRow.toOption_toItem_ofItem]

theorem eq_of_decode?_encode {s t : StockItem} (h : decode? s.encode = some t) : t = s := by
  rw [decode?_encode] at h
  split at h
  · exact (Option.some.inj h).symm
  · cases h

theorem ofJson?_bind_toItem (s : StockItem) :
    ((ItemRow.ofJson? (ItemRow.ofItem s).json).bind fun r => r.toItem.toOption) =
      if s.Storable then some s else none := by
  rw [ItemRow.ofJson?_json (ItemRow.fits_ofItem s), Option.bind_some,
    ItemRow.toOption_toItem_ofItem]

theorem plain_list (xs : List StockItem) :
    (Json.list (fun s => (ItemRow.ofItem s).json) xs).Plain := by
  refine .array fun j hj => ?_
  obtain ⟨s, -, rfl⟩ := List.mem_map.1 hj
  exact ItemRow.plain_json _

theorem mapM_ofJson?_bind_toItem (xs : List StockItem) :
    ((xs.map fun s => (ItemRow.ofItem s).json).mapM fun j =>
        (ItemRow.ofJson? j).bind fun r => r.toItem.toOption) =
      if ∀ s ∈ xs, s.Storable then some xs else none := by
  induction xs with
  | nil => simp
  | cons s xs ih =>
    rw [List.map_cons, List.mapM_cons, ofJson?_bind_toItem, ih]
    by_cases hs : s.Storable
    · by_cases hxs : ∀ t ∈ xs, t.Storable
      · rw [if_pos hs, if_pos hxs, if_pos (by simpa [hs] using hxs)]
        rfl
      · rw [if_pos hs, if_neg hxs, if_neg (by simpa [hs] using hxs)]
        rfl
    · have hall : ¬ ∀ t ∈ s :: xs, t.Storable := fun h => hs (h s (by simp))
      rw [if_neg hs, if_neg hall]
      rfl

/-- A list is read back from its text exactly if all its items can be stored. -/
theorem decodeAll?_encodeAll (xs : List StockItem) :
    decodeAll? (encodeAll xs) = if ∀ s ∈ xs, s.Storable then some xs else none := by
  rw [decodeAll?, encodeAll, Json.ofString?_print (plain_list xs), Json.list]
  exact mapM_ofJson?_bind_toItem xs

theorem eq_of_decodeAll?_encodeAll {xs ys : List StockItem}
    (h : decodeAll? (encodeAll xs) = some ys) : ys = xs := by
  rw [decodeAll?_encodeAll] at h
  split at h
  · exact (Option.some.inj h).symm
  · cases h

/-- A text that is read as an item spells its row, and so its counts. -/
theorem ofString?_of_decode? {text : String} {s : StockItem} (h : decode? text = some s) :
    ItemRow.ofString? text = some (.ofItem s) := by
  rw [decode?, ItemRow.ofString?, Option.bind_assoc] at h
  obtain ⟨j, hj, hitem⟩ := Option.bind_eq_some_iff.1 h
  rw [ItemRow.ofString?, hj, Option.bind_some, ItemRow.ofJson?_of_accepted hitem]

theorem ofJson?_of_mapM {js : List Json} {xs : List StockItem}
    (h : (js.mapM fun j => (ItemRow.ofJson? j).bind fun r => r.toItem.toOption) = some xs) :
    js.map ItemRow.ofJson? = xs.map fun s => some (.ofItem s) := by
  induction js generalizing xs with
  | nil =>
    cases h
    rfl
  | cons j js ih =>
    rw [List.mapM_cons] at h
    obtain ⟨s, hs, hrest⟩ := Option.bind_eq_some_iff.1 h
    obtain ⟨ys, hys, hxs⟩ := Option.bind_eq_some_iff.1 hrest
    cases hxs
    rw [List.map_cons, List.map_cons, ItemRow.ofJson?_of_accepted hs, ih hys]

/-- A text that is read as a list of items spells their rows, one after another. -/
theorem ofString?_of_decodeAll? {text : String} {xs : List StockItem}
    (h : decodeAll? text = some xs) :
    ∃ js, Json.ofString? text = some (.array js) ∧
      js.map ItemRow.ofJson? = xs.map fun s => some (.ofItem s) := by
  unfold decodeAll? at h
  split at h
  · exact ⟨_, by assumption, ofJson?_of_mapM h⟩
  · cases h

end StockItem
end StockLedger
