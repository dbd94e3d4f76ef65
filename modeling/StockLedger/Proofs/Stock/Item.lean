import Mathlib.Tactic.Common
import StockLedger.Stock.Item

/-!
# What changes do to a stock item

* `StockItem.Change.claims` : how many more units are reserved after a change;
* `StockItem.apply_ok` : what a change leaves alone, and what it does to the reserved units;
* `StockItem.release_of_le` : units that are reserved can be given back;
* `StockItem.Edited` : an item after any number of changes.
-/

namespace StockLedger
namespace StockItem

/-- How many more units are reserved after a change of so many units. -/
def Change.claims : Change → Int → Int
  | .reserve, units => units
  | .release, units | .confirm, units => -units
  | .add, _ | .decrement, _ => 0

/-- A change that is not refused keeps identity, product and version. -/
structure Changed (s u : StockItem) (claimed : Int) : Prop where
  id : u.id = s.id
  productId : u.productId = s.productId
  version : u.version = s.version
  reserved : u.reserved = s.reserved + claimed

theorem apply_ok {s u : StockItem} {change : Change} {units : Int}
    (h : s.apply change units = .ok u) : Changed s u (change.claims units) := by
  cases change with
  | reserve =>
    simp only [apply, reserve] at h
    split at h
    · split at h
      · cases h
        exact ⟨rfl, rfl, rfl, rfl⟩
      · cases h
    · cases h
  | release =>
    simp only [apply, release] at h
    split at h
    · split at h
      · cases h
        exact ⟨rfl, rfl, rfl, Int.sub_eq_add_neg⟩
      · cases h
    · cases h
  | confirm =>
    simp only [apply, confirm] at h
    split at h
    · split at h
      · split at h
        · cases h
          exact ⟨rfl, rfl, rfl, Int.sub_eq_add_neg⟩
        · cases h
      · cases h
    · cases h
  | add =>
    simp only [apply, add] at h
    split at h
    · split at h
      · cases h
        exact ⟨rfl, rfl, rfl, (Int.add_zero _).symm⟩
      · cases h
    · cases h
  | decrement =>
    simp only [apply, decrement] at h
    split at h
    · split at h
      · cases h
        exact ⟨rfl, rfl, rfl, (Int.add_zero _).symm⟩
      · cases h
    · cases h

theorem create_names {id : ItemId} {p : ProductId} {units : Int} {now : Timestamp} {s : StockItem}
    (h : create id p units now = .ok s) : s.id = id ∧ s.productId = p := by
  unfold create at h
  split at h
  · cases h
    exact ⟨rfl, rfl⟩
  · cases h

theorem reserved_sub_nonneg {s : StockItem} {units : Int} (h : units ≤ s.reserved) :
    0 ≤ s.reserved - units :=
  Int.sub_nonneg_of_le h

theorem reserved_sub_le {s : StockItem} {units : Int} (h : 0 < units) :
    s.reserved - units ≤ s.quantity :=
  Int.le_trans (Int.sub_le_self _ (Int.le_of_lt h)) s.reserved_le

/-- Units that are reserved can be given back. -/
theorem release_of_le {s : StockItem} {units : Int} (hunits : 0 < units)
    (hreserved : units ≤ s.reserved) :
    s.release units = .ok { s with
      reserved := s.reserved - units
      reserved_nonneg := reserved_sub_nonneg hreserved
      reserved_le := reserved_sub_le hunits } := by
  rw [release, dif_pos hunits, dif_pos hreserved]

/-- An item after any number of changes, each made to what the one before it gave. -/
inductive Edited (s : StockItem) : StockItem → Prop
  | refl : Edited s s
  | change {t u : StockItem} (h : Edited s t) (change : Change) (units : Int)
      (hu : t.apply change units = .ok u) : Edited s u

theorem Edited.id {s u : StockItem} (h : Edited s u) : u.id = s.id := by
  induction h with
  | refl => rfl
  | change _ _ _ hu ih => exact (apply_ok hu).id.trans ih

theorem Edited.version {s u : StockItem} (h : Edited s u) : u.version = s.version := by
  induction h with
  | refl => rfl
  | change _ _ _ hu ih => exact (apply_ok hu).version.trans ih

end StockItem
end StockLedger
