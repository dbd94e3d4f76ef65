import Mathlib.Data.List.Nodup
import Mathlib.Data.List.Perm.Basic
import Mathlib.Tactic.Common
import StockLedger.Proofs.Memory.Ledger

/-!
# The items of a ledger in memory, listed in any order

* `MemoryLedger.Keyed.filter_id`, `Indexed.filter_product` : the items with an identity or a product
  are those that a look-up finds;
* `MemoryLedger.Keyed.filter_ids`, `Keyed.sort_low` : searches over the list;
* `MemoryLedger.Keyed.perm_insert`, `Keyed.perm_erase` : the list after a change;
* `MemoryLedger.Indexed.any_clashes` : the identity or the product of an item is taken exactly if
  some item of the list has it.
-/

namespace StockLedger

/-- Among distinct things, those that pass a test, if at most one does. -/
theorem filter_eq_toList {α : Type} {xs : List α} {p : α → Bool} {o : Option α} (hxs : xs.Nodup)
    (h : ∀ a, (a ∈ xs ∧ p a = true) ↔ o = some a) : xs.filter p = o.toList := by
  have hperm : (xs.filter p).Perm o.toList := by
    rw [List.perm_ext_iff_of_nodup (hxs.filter p) (by cases o <;> simp)]
    intro a
    rw [List.mem_filter, h, Option.mem_toList]
  cases o with
  | none => exact hperm.eq_nil
  | some a => exact List.perm_singleton.1 hperm

/-- What a test picks nothing from stays whole. -/
theorem filter_not_of_eq_nil {α : Type} {xs : List α} {p : α → Bool} (h : xs.filter p = []) :
    (xs.filter fun a => !p a) = xs := by
  refine List.filter_eq_self.2 fun a ha => ?_
  rw [Bool.not_eq_true', ← Bool.not_eq_true]
  exact List.filter_eq_nil_iff.1 h a ha

/-- Do two items have the same identity or the same product? -/
def StockItem.clashes (s t : StockItem) : Bool :=
  s.id = t.id || s.productId = t.productId

namespace MemoryLedger

variable {l : MemoryLedger} {xs : List StockItem} {s t : StockItem}

/-! ## Look-up -/

theorem Keyed.mem_iff (h : l.Keyed) (hxs : xs.Perm l.items.values) :
    s ∈ xs ↔ l.items.find? s.id = some s :=
  hxs.mem_iff.trans (Table.mem_values_iff_find?_key h)

theorem Keyed.nodup (h : l.Keyed) (hxs : xs.Perm l.items.values) : xs.Nodup :=
  hxs.nodup_iff.2 (Table.nodup_values h)

theorem Keyed.filter_id (h : l.Keyed) (hxs : xs.Perm l.items.values) (id : ItemId) :
    (xs.filter fun s => decide (s.id = id)) = (l.items.find? id).toList := by
  refine filter_eq_toList (h.nodup hxs) fun s => ?_
  rw [h.mem_iff hxs, decide_eq_true_iff]
  constructor
  · rintro ⟨hs, rfl⟩
    exact hs
  · intro hs
    rcases h id s hs with rfl
    exact ⟨hs, rfl⟩

theorem Keyed.filter_version (h : l.Keyed) (hxs : xs.Perm l.items.values) (id : ItemId)
    (v : UInt64) :
    (xs.filter fun s => decide (s.id = id) && decide (s.version = v)) =
      ((l.items.find? id).filter fun s => decide (s.version = v)).toList := by
  refine filter_eq_toList (h.nodup hxs) fun s => ?_
  rw [h.mem_iff hxs, Bool.and_eq_true, decide_eq_true_iff, Option.filter_eq_some_iff]
  constructor
  · rintro ⟨hs, rfl, hv⟩
    exact ⟨hs, hv⟩
  · rintro ⟨hs, hv⟩
    rcases h id s hs with rfl
    exact ⟨hs, rfl, hv⟩

/-- The others than the item of a version are the others than the item. -/
theorem Keyed.filter_not_version (h : l.Keyed) (hxs : xs.Perm l.items.values) {id : ItemId}
    {stored : StockItem} (hstored : l.items.find? id = some stored) {v : UInt64}
    (hv : stored.version = v) :
    (xs.filter fun s => !(decide (s.id = id) && decide (s.version = v))) =
      xs.filter fun s => !decide (s.id = id) := by
  refine List.filter_congr fun s hs => ?_
  by_cases hid : s.id = id
  · have hrow := (h.mem_iff hxs).1 hs
    rw [hid, hstored] at hrow
    cases hrow
    simp [hid, hv]
  · simp [hid]

theorem Indexed.find?_product_iff (h : l.Indexed) (p : ProductId) :
    (l.byProduct.find? p).bind l.items.find? = some s ↔
      l.items.find? s.id = some s ∧ s.productId = p := by
  rw [Option.bind_eq_some_iff]
  constructor
  · rintro ⟨id, hid, hs⟩
    rcases h.tells p id hid with ⟨x, hx, hp⟩
    rw [hs] at hx
    cases hx
    rcases h.keyed id s hs with rfl
    exact ⟨hs, hp⟩
  · rintro ⟨hs, rfl⟩
    exact ⟨s.id, h.leads s.id s hs, hs⟩

theorem Indexed.filter_product (h : l.Indexed) (hxs : xs.Perm l.items.values) (p : ProductId) :
    (xs.filter fun s => decide (s.productId = p)) =
      ((l.byProduct.find? p).bind l.items.find?).toList := by
  refine filter_eq_toList (h.keyed.nodup hxs) fun s => ?_
  rw [h.keyed.mem_iff hxs, decide_eq_true_iff, h.find?_product_iff]

/-- The index leads to an item or nowhere. -/
theorem Indexed.isSome_product (h : l.Indexed) (p : ProductId) :
    ((l.byProduct.find? p).bind l.items.find?).isSome = l.byProduct.contains p := by
  unfold Table.contains
  cases hid : l.byProduct.find? p with
  | none => rfl
  | some id =>
    rcases h.tells p id hid with ⟨s, hs, -⟩
    simp [hs]

/-! ## Searches -/

theorem Keyed.filter_ids (h : l.Keyed) (hxs : xs.Perm l.items.values) {ids : List ItemId}
    (hids : ids.Nodup) :
    (xs.filter fun s => ids.contains s.id).Perm (ids.filterMap l.items.find?) := by
  have hfound : (ids.filterMap l.items.find?).Nodup := by
    refine hids.filterMap fun i j s hi hj => ?_
    exact (h i s hi).symm.trans (h j s hj)
  rw [List.perm_ext_iff_of_nodup ((h.nodup hxs).filter _) hfound]
  intro s
  rw [List.mem_filter, h.mem_iff hxs, List.contains_iff_mem, List.mem_filterMap]
  constructor
  · rintro ⟨hs, hid⟩
    exact ⟨s.id, hid, hs⟩
  · rintro ⟨id, hid, hs⟩
    rcases h id s hs with rfl
    exact ⟨hs, hid⟩

theorem scarcer_iff : scarcer s t = true ↔
    s.available < t.available ∨
      s.available = t.available ∧ s.id.uuid.value ≤ t.id.uuid.value := by
  simp [scarcer]

theorem pairwise_mergeSort_scarcer (xs : List StockItem) :
    (xs.mergeSort scarcer).Pairwise fun s t => scarcer s t = true := by
  refine List.pairwise_mergeSort (fun s t u hst htu => ?_) (fun s t => ?_) xs
  · rw [scarcer_iff] at hst htu ⊢
    omega
  · rw [Bool.or_eq_true, scarcer_iff, scarcer_iff]
    omega

theorem id_eq_of_scarcer (h : scarcer s t = true) (h' : scarcer t s = true) : s.id = t.id := by
  rw [scarcer_iff] at h h'
  have hvalue : s.id.uuid.value = t.id.uuid.value := by omega
  rcases s with ⟨⟨⟨m, _⟩⟩⟩
  rcases t with ⟨⟨⟨n, _⟩⟩⟩
  simpa using hvalue

/-- The scarcest items come in one order, however they were listed. -/
theorem Keyed.sort_low (h : l.Keyed) (hxs : xs.Perm l.items.values) (threshold : Int)
    (limit : UInt64) :
    takeLimit limit ((xs.filter fun s => s.available ≤ threshold).mergeSort scarcer) =
      l.lowStock threshold limit := by
  have hlow : (xs.filter fun s => s.available ≤ threshold).Perm
      (l.items.values.filter fun s => s.available ≤ threshold) := hxs.filter _
  have hperm := ((List.mergeSort_perm _ scarcer).trans hlow).trans
    (List.mergeSort_perm _ scarcer).symm
  have hsorted : (xs.filter fun s => s.available ≤ threshold).mergeSort scarcer =
      (l.items.values.filter fun s => s.available ≤ threshold).mergeSort scarcer := by
    -- Both lists are sorted, and items of which each comes before the other are the same.
    refine hperm.eq_of_pairwise (fun s t hs ht hst hts => ?_) (pairwise_mergeSort_scarcer _)
      (pairwise_mergeSort_scarcer _)
    have hrow (u : StockItem) (hu : u ∈ (l.items.values.filter fun s =>
        s.available ≤ threshold).mergeSort scarcer) : l.items.find? u.id = some u :=
      (h.mem_iff (.refl _)).1 (List.mem_of_mem_filter ((List.mergeSort_perm ..).subset hu))
    have hs := hrow s (hperm.subset hs)
    rw [id_eq_of_scarcer hst hts] at hs
    exact Option.some.inj (hs.symm.trans (hrow t ht))
  rw [hsorted, lowStock]

/-! ## Changes -/

theorem Keyed.perm_erase (h : l.Keyed) (hxs : xs.Perm l.items.values) (id : ItemId) :
    (xs.filter fun s => !decide (s.id = id)).Perm (l.items.erase id).values := by
  rw [Table.values_erase h]
  exact hxs.filter _

theorem Keyed.perm_insert (h : l.Keyed) (hxs : xs.Perm l.items.values) (id : ItemId)
    (s : StockItem) :
    (s :: xs.filter fun s => !decide (s.id = id)).Perm (l.items.insert id s).values := by
  rw [Table.values_insert]
  exact (h.perm_erase hxs id).cons s

/-! ## Identities and products that are taken -/

theorem Indexed.any_clashes (h : l.Indexed) (hxs : xs.Perm l.items.values) (s : StockItem) :
    xs.any s.clashes = (l.items.contains s.id || l.byProduct.contains s.productId) := by
  rw [Bool.eq_iff_iff, List.any_eq_true, Bool.or_eq_true, Table.contains_eq_true_iff,
    ← h.isSome_product, Option.isSome_iff_exists]
  constructor
  · rintro ⟨t, ht, hclash⟩
    rw [h.keyed.mem_iff hxs] at ht
    rw [StockItem.clashes, Bool.or_eq_true, decide_eq_true_iff, decide_eq_true_iff] at hclash
    rcases hclash with hid | hproduct
    · exact .inl ⟨t, hid ▸ ht⟩
    · exact .inr ⟨t, (h.find?_product_iff ..).2 ⟨ht, hproduct.symm⟩⟩
  · rintro (⟨t, ht⟩ | ⟨t, ht⟩)
    · have hid := h.keyed s.id t ht
      refine ⟨t, (h.keyed.mem_iff hxs).2 (hid ▸ ht), ?_⟩
      simp [StockItem.clashes, hid]
    · rcases (h.find?_product_iff ..).1 ht with ⟨hrow, hproduct⟩
      refine ⟨t, (h.keyed.mem_iff hxs).2 hrow, ?_⟩
      simp [StockItem.clashes, hproduct]

/-- An item gets in the way of no other item than the one it is written over. -/
theorem Indexed.not_any_clashes (h : l.Indexed) (hxs : xs.Perm l.items.values)
    {stored : StockItem} (hstored : l.items.find? s.id = some stored)
    (hproduct : s.productId = stored.productId) :
    (xs.filter fun t => !decide (t.id = s.id)).any s.clashes = false := by
  rw [List.any_eq_false]
  intro t ht
  rw [List.mem_filter, h.keyed.mem_iff hxs, Bool.not_eq_true', decide_eq_false_iff_not] at ht
  rw [StockItem.clashes, Bool.or_eq_true, decide_eq_true_iff, decide_eq_true_iff]
  rintro (hid | hp)
  · exact ht.2 hid.symm
  -- The index leads from the product to the item that is written over, and to no other one.
  · have hleads := h.leads t.id t ht.1
    rw [← hp, hproduct, h.leads s.id stored hstored] at hleads
    exact ht.2 (Option.some.inj hleads).symm

end MemoryLedger
end StockLedger
