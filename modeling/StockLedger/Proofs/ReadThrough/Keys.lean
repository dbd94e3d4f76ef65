import Mathlib.Data.List.Basic
import Mathlib.Data.Set.Lattice
import Mathlib.Logic.Function.Basic
import Mathlib.Order.CompletePartialOrder
import Mathlib.Tactic.Common
import StockLedger.Memory.Cache
import StockLedger.Proofs.Identity.Uuid
import StockLedger.Proofs.Text.Decimal
import StockLedger.Proofs.Text.Glob
import StockLedger.ReadThrough.Keys

/-!
# Keys do not collide

* `CacheKey.item_injective`, `product_injective`, `lowStock_injective` : each kind of key tells what
  it is made of;
* `CacheKey.item_ne_product`, `item_ne_lowStock`, `product_ne_lowStock` : the kinds are disjoint;
* `CacheKey.fits_lowStock`, `not_fits_item`, `not_fits_product` : the pattern of lists picks out the
  keys of lists;
* `cache_keys_apart` : all of it, over all identities, products, thresholds and limits.
-/

namespace StockLedger
namespace CacheKey

/-! ## Characters -/

theorem toList_item (id : ItemId) : (item id).toList = "item:id:".toList ++ id.text.toList := by
  simp [item]

theorem toList_product (p : ProductId) :
    (product p).toList = "item:product:".toList ++ p.text.toList := by
  simp [product]

theorem toList_lowStock (threshold : Int) (limit : UInt64) :
    (lowStock threshold limit).toList = "lowstock:".toList ++
      (Decimal.intChars threshold ++ ':' :: Decimal.digits limit.toNat) := by
  simp [lowStock, Decimal.int, Decimal.nat]

/-! ## Each kind of key -/

theorem item_injective {a b : ItemId} (h : item a = item b) : a = b := by
  have hlist := congrArg String.toList h
  rw [toList_item, toList_item, List.append_cancel_left_eq] at hlist
  exact ItemId.text_injective (String.toList_inj.1 hlist)

theorem product_injective {a b : ProductId} (h : product a = product b) : a = b := by
  have hlist := congrArg String.toList h
  rw [toList_product, toList_product, List.append_cancel_left_eq] at hlist
  exact ProductId.text_injective (String.toList_inj.1 hlist)

theorem lowStock_injective {t t' : Int} {l l' : UInt64} (h : lowStock t l = lowStock t' l') :
    t = t' ∧ l = l' := by
  have hlist := congrArg String.toList h
  rw [toList_lowStock, toList_lowStock, List.append_cancel_left_eq] at hlist
  obtain ⟨ht, -, hl⟩ := (List.append_cons_inj_of_notMem (Decimal.colon_notMem_intChars t)
    (Decimal.colon_notMem_digits l.toNat)).1 hlist
  exact ⟨Decimal.intChars_injective ht, UInt64.toNat_inj.1 (Decimal.digits_injective hl)⟩

/-! ## Different kinds -/

theorem item_ne_product (id : ItemId) (p : ProductId) : item id ≠ product p := by
  intro h
  have hlist := congrArg String.toList h
  rw [toList_item, toList_product] at hlist
  simp at hlist

theorem item_ne_lowStock (id : ItemId) (t : Int) (l : UInt64) : item id ≠ lowStock t l := by
  intro h
  have hlist := congrArg String.toList h
  rw [toList_item, toList_lowStock] at hlist
  simp at hlist

theorem product_ne_lowStock (p : ProductId) (t : Int) (l : UInt64) :
    product p ≠ lowStock t l := by
  intro h
  have hlist := congrArg String.toList h
  rw [toList_product, toList_lowStock] at hlist
  simp at hlist

/-! ## The pattern of lists -/

theorem pieces_allLowStock : Glob.pieces allLowStock.toList = ["lowstock:".toList, []] := by
  decide

theorem fits_lowStock (t : Int) (l : UInt64) :
    MemoryCache.fits allLowStock (lowStock t l) = true := by
  rw [MemoryCache.fits, toList_lowStock, Glob.isMatch, pieces_allLowStock]
  simp only [Glob.dropFront?_append, Glob.placeRest]
  simp

theorem not_fits_item (id : ItemId) : MemoryCache.fits allLowStock (item id) = false := by
  rw [MemoryCache.fits, toList_item, Glob.isMatch, pieces_allLowStock]
  simp [Glob.dropFront?]

theorem not_fits_product (p : ProductId) :
    MemoryCache.fits allLowStock (product p) = false := by
  rw [MemoryCache.fits, toList_product, Glob.isMatch, pieces_allLowStock]
  simp [Glob.dropFront?]

end CacheKey

open CacheKey in
/--
Nothing is cached under the key of something else: a key tells the identity, the product, or the
threshold and the limit that it is made of, and no two kinds of key meet. The pattern of lists
stands for every key of a list and for no other key, and its matcher says so on bytes as on
characters.
-/
theorem cache_keys_apart :
    Function.Injective item ∧ Function.Injective product ∧ Function.Injective2 lowStock ∧
    Disjoint (Set.range item) (Set.range product) ∧
    Disjoint (Set.range item) (Set.range (Function.uncurry lowStock)) ∧
    Disjoint (Set.range product) (Set.range (Function.uncurry lowStock)) ∧
    (∀ key : String, Glob.scan? (Text.bytes allLowStock.toList) (Text.bytes key.toList) =
      some (MemoryCache.fits allLowStock key)) ∧
    (∀ threshold limit, MemoryCache.fits allLowStock (lowStock threshold limit) = true) ∧
    (∀ id, MemoryCache.fits allLowStock (item id) = false) ∧
    ∀ p, MemoryCache.fits allLowStock (product p) = false := by
  refine ⟨fun _ _ => item_injective, fun _ _ => product_injective,
    fun _ _ _ _ => lowStock_injective, ?_, ?_, ?_, ?_, fits_lowStock, not_fits_item, not_fits_product⟩
  · rw [Set.disjoint_range_iff]
    exact item_ne_product
  · rw [Set.disjoint_range_iff]
    rintro id ⟨threshold, limit⟩
    exact item_ne_lowStock id threshold limit
  · rw [Set.disjoint_range_iff]
    rintro p ⟨threshold, limit⟩
    exact product_ne_lowStock p threshold limit
  · intro key
    exact Glob.scan?_bytes allLowStock.toList key.toList

example : CacheKey.lowStock (-9223372036854775808) 0 = "lowstock:-9223372036854775808:0" := by
  decide

end StockLedger
