import Mathlib.Algebra.BigOperators.Group.List.Basic
import Mathlib.Algebra.Order.Ring.Int
import Mathlib.Data.List.Nodup
import Mathlib.Tactic.Common
import StockLedger.Table.Basic

/-!
# Tables after a change

* `Table.find?_eraseIf`, `Table.of_find?_insert` : look-up after a removal or an insertion;
* `Table.contains_congr`, `Table.insert_congr` : tables that agree on some keys;
* `Table.nodup_values`, `Table.values_erase` : what is stored, if each value tells its key;
* `Table.Below` : a table that holds nothing but what another one holds;
* `Table.total`, `Table.total_insert` : a sum over what is stored, and the sum after a change.
-/

namespace StockLedger
namespace Table

variable {κ ν : Type} [DecidableEq κ]

/-! ## Look-up -/

theorem find?_eraseIf (t : Table κ ν) (p : κ → ν → Bool) (k : κ) :
    (t.eraseIf p).find? k = (t.find? k).filter fun v => !p k v := by
  refine Option.ext fun v => ?_
  rw [find?_eq_some_iff, Option.filter_eq_some_iff, find?_eq_some_iff]
  simp [eraseIf]

theorem contains_congr {t u : Table κ ν} {k : κ} (h : t.find? k = u.find? k) :
    t.contains k = u.contains k := by
  rw [contains, contains, h]

theorem contains_eq_true_iff (t : Table κ ν) (k : κ) :
    t.contains k = true ↔ ∃ v, t.find? k = some v :=
  Option.isSome_iff_exists

theorem contains_eq_false_iff (t : Table κ ν) (k : κ) :
    t.contains k = false ↔ t.find? k = none := by
  rw [contains, Option.isSome_eq_false_iff, Option.isNone_iff_eq_none]

theorem mem_values_iff (t : Table κ ν) (v : ν) : v ∈ t.values ↔ ∃ k, t.find? k = some v := by
  simp [values, find?_eq_some_iff]

theorem mem_values_of_find? {t : Table κ ν} {k : κ} {v : ν} (h : t.find? k = some v) :
    v ∈ t.values :=
  (t.mem_values_iff v).2 ⟨k, h⟩

/-- Tables that agree on some keys agree on them after the same insertion. -/
theorem insert_congr {p : κ → Bool} {t u : Table κ ν}
    (h : ∀ k, p k = true → t.find? k = u.find? k) (j : κ) (v : ν) :
    ∀ k, p k = true → (t.insert j v).find? k = (u.insert j v).find? k := by
  intro k hk
  rw [find?_insert, find?_insert, h k hk]

/-- What is found after an insertion was inserted, or was there before. -/
theorem of_find?_insert {t : Table κ ν} {k j : κ} {v x : ν}
    (h : (t.insert k v).find? j = some x) : j = k ∧ v = x ∨ j ≠ k ∧ t.find? j = some x := by
  rw [find?_insert] at h
  split at h
  · next hj => exact .inl ⟨hj, Option.some.inj h⟩
  · next hj => exact .inr ⟨hj, h⟩

/-! ## Values that tell their keys -/

section Keyed

variable {t : Table κ ν} {key : ν → κ} (h : ∀ k v, t.find? k = some v → key v = k)

include h

theorem nodup_values : t.values.Nodup := by
  have hkeys : t.values.map key = t.keys := by
    rw [values, keys, List.map_map]
    refine List.map_congr_left fun p hp => ?_
    exact h p.1 p.2 ((find?_eq_some_iff ..).2 hp)
  have hnodup : (t.values.map key).Nodup := by
    rw [hkeys]
    exact t.nodup
  exact List.Nodup.of_map key hnodup

theorem mem_values_iff_find?_key {v : ν} : v ∈ t.values ↔ t.find? (key v) = some v := by
  rw [mem_values_iff]
  constructor
  · rintro ⟨k, hk⟩
    rw [h k v hk]
    exact hk
  · exact fun hk => ⟨key v, hk⟩

theorem values_erase (k : κ) :
    (t.erase k).values = t.values.filter fun v => !decide (key v = k) := by
  rw [values, erase, eraseIf, values, List.filter_map]
  refine congrArg (List.map Prod.snd) (List.filter_congr fun p hp => ?_)
  have hkey : key p.2 = p.1 := h p.1 p.2 ((find?_eq_some_iff ..).2 hp)
  simp [hkey]

end Keyed

theorem values_insert (t : Table κ ν) (k : κ) (v : ν) :
    (t.insert k v).values = v :: (t.erase k).values := rfl

/-! ## Tables that hold less -/

/-- Whatever a table holds, the other one holds under the same key. -/
def Below (t u : Table κ ν) : Prop :=
  ∀ k v, t.find? k = some v → u.find? k = some v

theorem below_eraseIf (t : Table κ ν) (p : κ → ν → Bool) : (t.eraseIf p).Below t := by
  intro k v h
  rw [find?_eraseIf, Option.filter_eq_some_iff] at h
  exact h.1

theorem below_erase (t : Table κ ν) (k : κ) : (t.erase k).Below t :=
  below_eraseIf t _

/-! ## Sums -/

/-- The sum of a measure of what is stored. -/
def total (t : Table κ ν) (f : ν → Int) : Int :=
  (t.values.map f).sum

/-- What is stored under a key, and the rest. -/
theorem total_erase (t : Table κ ν) (k : κ) (f : ν → Int) :
    t.total f = (t.erase k).total f + ((t.find? k).map f).getD 0 := by
  rcases t with ⟨pairs, nodup⟩
  simp only [total, values, erase, eraseIf]
  induction pairs with
  | nil => rfl
  | cons p ps ih =>
    rcases p with ⟨a, b⟩
    have hps := (List.nodup_cons.1 nodup).2
    have hfresh : a ∉ ps.map Prod.fst := (List.nodup_cons.1 nodup).1
    have ih := ih hps
    by_cases h : a = k
    · subst h
      -- No other pair has this key, so nothing else is removed.
      have hrest : ps.filter (fun q => !decide (q.1 = a)) = ps := by
        refine List.filter_eq_self.2 fun q hq => ?_
        have hne : q.1 ≠ a := fun he => hfresh (he ▸ List.mem_map_of_mem hq)
        simp [hne]
      simp only [find?] at ih ⊢
      simp [hrest, Int.add_comm]
    · simp only [find?] at ih ⊢
      simp only [List.map_cons, List.sum_cons, List.filter_cons, h, decide_false, Bool.not_false,
        if_true, List.find?_cons] at ih ⊢
      rw [ih, Int.add_assoc]

theorem total_insert (t : Table κ ν) (k : κ) (v : ν) (f : ν → Int) :
    (t.insert k v).total f = t.total f - ((t.find? k).map f).getD 0 + f v := by
  have h := t.total_erase k f
  have hinsert : (t.insert k v).total f = f v + (t.erase k).total f := by
    simp [total, values, insert]
  omega

end Table
end StockLedger
