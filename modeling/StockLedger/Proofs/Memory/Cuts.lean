import Mathlib.Data.List.Infix
import Mathlib.Tactic.Common
import StockLedger.Memory.Ledger

/-!
# What a limit leaves of a list

A limit of zero is none; any other limit keeps that many elements from the front.

* `exists_takeLimit_append`, `length_takeLimit` : what is kept, and how much;
* `takeLimit_eq_self`, `takeLimit_of_length_le` : when nothing is left out;
* `after_takeLimit` : in a sorted list what is left out comes after all that is kept;
* `Narrower`, `takeLimit_prefix_of_narrower` : a narrower limit keeps a prefix of what a wider one
  keeps.
-/

namespace StockLedger

variable {α : Type} {xs : List α} {limit wider : UInt64}

theorem exists_takeLimit_append (limit : UInt64) (xs : List α) :
    ∃ rest, takeLimit limit xs ++ rest = xs := by
  unfold takeLimit
  split
  · exact ⟨[], List.append_nil xs⟩
  · exact ⟨xs.drop limit.toNat, List.take_append_drop ..⟩

theorem takeLimit_front (limit : UInt64) (xs : List α) : takeLimit limit xs <+: xs :=
  exists_takeLimit_append limit xs

theorem length_takeLimit (limit : UInt64) (xs : List α) :
    (takeLimit limit xs).length = if limit = 0 then xs.length else min limit.toNat xs.length := by
  unfold takeLimit
  split
  · rfl
  · exact List.length_take

theorem takeLimit_map (limit : UInt64) {β : Type} (f : α → β) (xs : List α) :
    takeLimit limit (xs.map f) = (takeLimit limit xs).map f := by
  unfold takeLimit
  split
  · rfl
  · rw [List.map_take]

/-! ## Nothing is left out -/

/-- What is kept is everything if it is less than could be kept. -/
theorem takeLimit_eq_self
    (h : limit = 0 ∨ (takeLimit limit xs).length < limit.toNat) : takeLimit limit xs = xs := by
  unfold takeLimit at h ⊢
  by_cases hlimit : limit = 0
  · exact if_pos hlimit
  · rw [if_neg hlimit] at h ⊢
    have hlength := h.resolve_left hlimit
    rw [List.length_take] at hlength
    exact List.take_of_length_le (by omega)

/-- A limit above the number of things is none. -/
theorem takeLimit_of_length_le (h : xs.length ≤ limit.toNat) : takeLimit limit xs = xs := by
  unfold takeLimit
  split
  · rfl
  · exact List.take_of_length_le h

/-- If all that is kept is of one kind, it is no more than there is of this kind. -/
theorem length_takeLimit_le_countP {p : α → Bool} (h : ∀ x ∈ takeLimit limit xs, p x = true) :
    (takeLimit limit xs).length ≤ xs.countP p := by
  rcases exists_takeLimit_append limit xs with ⟨rest, hrest⟩
  calc
    (takeLimit limit xs).length = (takeLimit limit xs).countP p := (List.countP_eq_length.2 h).symm
    _ ≤ (takeLimit limit xs ++ rest).countP p := by
      rw [List.countP_append]
      exact Nat.le_add_right ..
    _ = xs.countP p := by rw [hrest]

/-! ## Sorted lists -/

/-- What a limit leaves out of a sorted list comes after everything that it keeps. -/
theorem after_takeLimit {r : α → α → Prop} (hsorted : xs.Pairwise r) {x : α} (hx : x ∈ xs)
    (hout : x ∉ takeLimit limit xs) : ∀ a ∈ takeLimit limit xs, r a x := by
  intro a ha
  obtain ⟨rest, hrest⟩ := exists_takeLimit_append limit xs
  rw [← hrest] at hsorted hx
  have hlater : x ∈ rest := (List.mem_append.1 hx).resolve_left hout
  exact (List.pairwise_append.1 hsorted).2.2 a ha x hlater

/-! ## Narrower and wider limits -/

/-- One limit keeps no more than another one; zero keeps everything. -/
def Narrower (limit wider : UInt64) : Prop :=
  wider = 0 ∨ limit ≠ 0 ∧ limit ≤ wider

theorem takeLimit_prefix_of_narrower (h : Narrower limit wider) (xs : List α) :
    takeLimit limit xs <+: takeLimit wider xs := by
  rcases h with rfl | ⟨hlimit, hle⟩
  · exact takeLimit_front limit xs
  · have hwider : wider ≠ 0 := by
      rintro rfl
      exact hlimit (UInt64.le_zero_iff.1 hle)
    unfold takeLimit
    rw [if_neg hlimit, if_neg hwider]
    exact List.take_prefix_take_left (UInt64.le_iff_toNat_le.1 hle)

end StockLedger
