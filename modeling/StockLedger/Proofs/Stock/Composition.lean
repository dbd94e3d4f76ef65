import Mathlib.Tactic.Common
import StockLedger.Proofs.Stock.Conservation

/-!
# One change in place of two

Two changes, one after the other, may come to the same as a single one, or to nothing at all.

* `StockItem.room` : how many units a change can be made with;
* `StockItem.apply_eq_ok_iff` : a change is made just if there is room, and then moves the counts;
* `StockItem.reserve_iff_release` : to claim units and to give them back undo each other;
* `StockItem.confirm_iff` : a confirmation is a release with a write-off after it;
* `StockItem.apply_add_iff` : two changes of one kind are one change of the units of both;
* `changes_compose` : the same in words.
-/

namespace StockLedger

open StockItem (Change)

namespace WordItem

/-- A change is made and leaves the item like this. -/
abbrev Makes (w : WordItem) (change : Change) (units : Int64) (u : WordItem) : Prop :=
  w.change? change units = some (.ok (), u)

/-- Words are those of an item if their counts could be. -/
theorem exists_words {w : WordItem} (hlow : 0 ≤ w.reserved) (hhigh : w.reserved ≤ w.quantity) :
    ∃ s : StockItem, s.words = w := by
  rw [Int64.le_iff_toInt_le] at hlow hhigh
  rw [Int64.toInt_zero] at hlow
  have hquantity : w.quantity.toInt ≤ maxUnits := Word.toInt_le_maxUnits w.quantity
  let s : StockItem :=
    { id := w.id, productId := w.productId, quantity := w.quantity.toInt
      reserved := w.reserved.toInt, version := w.version, createdAt := w.createdAt
      updatedAt := w.updatedAt
      reserved_nonneg := hlow, reserved_le := hhigh, quantity_le := hquantity }
  refine ⟨s, ?_⟩
  simp only [s, StockItem.words, Int64.ofInt_toInt]

end WordItem

namespace StockItem

variable {s t u : StockItem} {change : Change} {units a b : Int}

/-! ## When a change is made -/

/-- How many units a change can be made with at most. -/
def room (s : StockItem) : Change → Int
  | .reserve | .decrement => s.available
  | .release | .confirm => s.reserved
  | .add => maxUnits - s.quantity

/-- An answer that stands behind two checks. -/
theorem exists_ok_iff {p q : Prop} [Decidable p] [Decidable q] {made : p → q → StockItem}
    {f g : Fault} :
    (∃ t, (if h : p then if h' : q then .ok (made h h') else .error f else .error g :
      Answer StockItem) = .ok t) ↔ p ∧ q := by
  by_cases hp : p
  · by_cases hq : q
    · simp [hp, hq]
    · simp [hp, hq]
  · simp [hp]

/-- A change is made just if some units are asked for and there is room for them. -/
theorem exists_apply_iff :
    (∃ t, s.apply change units = .ok t) ↔ 0 < units ∧ units ≤ s.room change := by
  cases change with
  | reserve => exact exists_ok_iff
  | release => exact exists_ok_iff
  | decrement => exact exists_ok_iff
  | add =>
    have hroom : s.quantity + units ≤ maxUnits ↔ units ≤ s.room .add := by
      dsimp only [room]
      omega
    rw [← hroom]
    exact exists_ok_iff
  | confirm =>
    by_cases hpos : 0 < units
    · by_cases hroom : units ≤ s.reserved
      -- What is reserved is owned, so that the third check says no more than the second.
      · have howned : units ≤ s.quantity := Int.le_trans hroom s.reserved_le
        simp [apply, confirm, room, hpos, hroom, howned]
      · simp [apply, confirm, room, hpos, hroom]
    · simp [apply, confirm, hpos]

/-! ## What a change leads to -/

/-- The item that a change of so many units leads to: the counts have moved, all else is kept. -/
structure Moved (s : StockItem) (change : Change) (units : Int) (t : StockItem) : Prop where
  quantity : t.quantity = s.quantity + change.gains units
  reserved : t.reserved = s.reserved + change.claims units
  same : s.words.SameRecord t.words

theorem moved_of_apply (h : s.apply change units = .ok t) : s.Moved change units t := by
  have hchanged := apply_ok h
  rcases gains_of_apply h with ⟨hquantity, hcreated, hupdated⟩
  exact ⟨hquantity, hchanged.reserved,
    ⟨hchanged.id, hchanged.productId, hchanged.version, hcreated, hupdated⟩⟩

/-- An item is known by its record and its counts. -/
theorem eq_of_counts (hs : s.words.SameRecord t.words) (hquantity : t.quantity = s.quantity)
    (hreserved : t.reserved = s.reserved) : t = s := by
  rcases hs with ⟨hid, hproduct, hversion, hcreated, hupdated⟩
  cases s
  cases t
  simp only [words] at *
  subst_vars
  rfl

theorem Moved.unique (ht : s.Moved change units t) (hu : s.Moved change units u) : t = u := by
  have hsame : u.words.SameRecord t.words := hu.same.symm.trans ht.same
  exact eq_of_counts hsame (ht.quantity.trans hu.quantity.symm) (ht.reserved.trans hu.reserved.symm)

theorem apply_eq_ok_iff :
    s.apply change units = .ok t ↔
      0 < units ∧ units ≤ s.room change ∧ s.Moved change units t := by
  constructor
  · intro h
    rcases exists_apply_iff.1 ⟨t, h⟩ with ⟨hpos, hroom⟩
    exact ⟨hpos, hroom, moved_of_apply h⟩
  · rintro ⟨hpos, hroom, hmoved⟩
    rcases exists_apply_iff.2 ⟨hpos, hroom⟩ with ⟨t', ht'⟩
    rw [ht', (moved_of_apply ht').unique hmoved]

/-! ## Two changes -/

/-- A change uses up the room for changes of its kind. -/
theorem Moved.room_eq (h : s.Moved change units t) : t.room change = s.room change - units := by
  have hquantity := h.quantity
  have hreserved := h.reserved
  cases change <;> simp only [room, available, Change.gains, Change.claims] at * <;> omega

theorem Moved.trans (ht : s.Moved change a t) (hu : t.Moved change b u) :
    s.Moved change (a + b) u := by
  have hquantity := hu.quantity
  have hreserved := hu.reserved
  rw [ht.quantity] at hquantity
  rw [ht.reserved] at hreserved
  refine ⟨?_, ?_, ht.same.trans hu.same⟩
  · cases change <;> simp only [Change.gains] at * <;> omega
  · cases change <;> simp only [Change.claims] at * <;> omega

/-- Two changes of one kind are both made just if one change of the units of both is, and they lead
to the same item. -/
theorem apply_add_iff (ha : 0 < a) (hb : 0 < b) :
    (∃ t, s.apply change a = .ok t ∧ t.apply change b = .ok u) ↔
      s.apply change (a + b) = .ok u := by
  constructor
  · rintro ⟨t, ht, hu⟩
    rw [apply_eq_ok_iff] at ht hu ⊢
    rcases ht with ⟨-, -, hmoved⟩
    rcases hu with ⟨-, hroom, hmoved'⟩
    rw [hmoved.room_eq] at hroom
    exact ⟨by omega, by omega, hmoved.trans hmoved'⟩
  · intro h
    rcases apply_eq_ok_iff.1 h with ⟨-, hroom, hmoved⟩
    -- There is room for the units of both, so there is for the first ones, and then for the others.
    rcases exists_apply_iff.2 ⟨ha, (by omega : a ≤ s.room change)⟩ with ⟨t, ht⟩
    have hleft := (moved_of_apply ht).room_eq
    rcases exists_apply_iff.2 ⟨hb, (by omega : b ≤ t.room change)⟩ with ⟨u', hu'⟩
    have hboth : s.Moved change (a + b) u' := (moved_of_apply ht).trans (moved_of_apply hu')
    rw [hmoved.unique hboth]
    exact ⟨t, ht, hu'⟩

theorem moved_reserve_iff : s.Moved .reserve units t ↔ t.Moved .release units s := by
  constructor
  · rintro ⟨hquantity, hreserved, hsame⟩
    refine ⟨?_, ?_, hsame.symm⟩ <;> simp only [Change.gains, Change.claims] at * <;> omega
  · rintro ⟨hquantity, hreserved, hsame⟩
    refine ⟨?_, ?_, hsame.symm⟩ <;> simp only [Change.gains, Change.claims] at * <;> omega

/-- To claim units and to give them back undo each other. -/
theorem reserve_iff_release :
    s.apply .reserve units = .ok t ↔ t.apply .release units = .ok s := by
  rw [apply_eq_ok_iff, apply_eq_ok_iff, ← moved_reserve_iff]
  -- Once the counts have moved there is room in both directions, for both items are items.
  have hroom (h : s.Moved .reserve units t) :
      units ≤ s.room .reserve ↔ units ≤ t.room .release := by
    have hquantity := h.quantity
    have hreserved := h.reserved
    have hlow := s.reserved_nonneg
    have hhigh := t.reserved_le
    simp only [Change.gains, Change.claims, room, available] at *
    omega
  constructor
  · rintro ⟨hpos, hunits, hmoved⟩
    exact ⟨hpos, (hroom hmoved).1 hunits, hmoved⟩
  · rintro ⟨hpos, hunits, hmoved⟩
    exact ⟨hpos, (hroom hmoved).2 hunits, hmoved⟩

/-- Units that have been given back are available, and so can be written off. -/
theorem exists_decrement (h : s.apply .release units = .ok t) :
    ∃ u, t.apply .decrement units = .ok u := by
  rcases apply_eq_ok_iff.1 h with ⟨hpos, hroom, hquantity, hreserved, -⟩
  have hhigh := s.reserved_le
  refine exists_apply_iff.2 ⟨hpos, ?_⟩
  simp only [Change.gains, Change.claims, room, available] at *
  omega

theorem Moved.confirm (ht : s.Moved .release units t) (hu : t.Moved .decrement units u) :
    s.Moved .confirm units u := by
  have hquantity := hu.quantity
  have hreserved := hu.reserved
  rw [ht.quantity] at hquantity
  rw [ht.reserved] at hreserved
  simp only [Change.gains, Change.claims] at hquantity hreserved
  exact ⟨by simp only [Change.gains]; omega, by simp only [Change.claims]; omega,
    ht.same.trans hu.same⟩

/-- A confirmation is a release with a write-off of the same units after it. -/
theorem confirm_iff :
    s.apply .confirm units = .ok u ↔
      ∃ t, s.apply .release units = .ok t ∧ t.apply .decrement units = .ok u := by
  constructor
  · intro h
    -- The same units are there to be confirmed and to be released.
    have hroom : 0 < units ∧ units ≤ s.room .confirm := exists_apply_iff.1 ⟨u, h⟩
    have hrelease : ∃ t, s.apply .release units = .ok t := exists_apply_iff.2 hroom
    rcases hrelease with ⟨t, ht⟩
    rcases exists_decrement ht with ⟨u', hu'⟩
    have hmoved := (moved_of_apply ht).confirm (moved_of_apply hu')
    rw [(moved_of_apply h).unique hmoved]
    exact ⟨t, ht, hu'⟩
  · rintro ⟨t, ht, hu⟩
    rcases apply_eq_ok_iff.1 ht with ⟨hpos, hroom, hmoved⟩
    exact apply_eq_ok_iff.2 ⟨hpos, hroom, hmoved.confirm (moved_of_apply hu)⟩

/-- A confirmation is refused for its units or for what is reserved, never for what is owned. -/
theorem code_of_confirm {f : Fault} (h : s.apply .confirm units = .error f) :
    f.code = .invalidQuantity ∨ f.code = .invalidConfirm := by
  have hrefused : ¬ ∃ t, s.apply .confirm units = .ok t := by
    rintro ⟨t, ht⟩
    rw [h] at ht
    cases ht
  rw [exists_apply_iff, not_and] at hrefused
  by_cases hpos : 0 < units
  · have hshort : ¬ units ≤ s.reserved := hrefused hpos
    rw [apply, confirm, dif_pos hpos, dif_neg hshort] at h
    cases h
    exact .inr rfl
  · rw [apply, confirm, dif_neg hpos] at h
    cases h
    exact .inl rfl

/-! ## In words -/

variable {n : Int64} {w : WordItem}

/-- A change in words is made just if that of the item is. -/
theorem makes_iff :
    s.words.Makes change n w ↔ ∃ t, s.apply change n.toInt = .ok t ∧ t.words = w := by
  rw [WordItem.Makes, s.change?_words, wordsOutcome, outcome]
  cases s.apply change n.toInt with
  | ok t => simp
  | error f => simp

theorem exists_makes_iff :
    (∃ w, s.words.Makes change n w) ↔ ∃ t, s.apply change n.toInt = .ok t := by
  constructor
  · rintro ⟨w, hw⟩
    rcases makes_iff.1 hw with ⟨t, ht, -⟩
    exact ⟨t, ht⟩
  · rintro ⟨t, ht⟩
    exact ⟨t.words, makes_iff.2 ⟨t, ht, rfl⟩⟩

theorem apply_of_outcome {f : Fault} (h : (s.wordsOutcome change units).1 = .error f) :
    s.apply change units = .error f := by
  rw [wordsOutcome, outcome] at h
  cases happly : s.apply change units with
  | ok t =>
    rw [happly] at h
    cases h
  | error f' =>
    rw [happly] at h
    cases h
    rfl

end StockItem

open WordItem in
/--
An item in words with `0 ≤ reserved ≤ quantity`, and any number of units that fits into a word.
A confirmation is made just if a release is, and then the released units can be written off, which
leaves the item that the confirmation leaves; it is never refused for want of owned units. A release
of what has just been reserved restores the item. Two changes of one kind are both made just if one
change of the units of both is, as long as their sum fits into a word, and they leave the same item.
-/
theorem changes_compose {w : WordItem} (hlow : 0 ≤ w.reserved) (hhigh : w.reserved ≤ w.quantity)
    (units : Int64) :
    ((∃ u, w.Makes .confirm units u) ↔ ∃ t, w.Makes .release units t) ∧
    (∀ t, w.Makes .release units t → ∃ u, t.Makes .decrement units u ∧ w.Makes .confirm units u) ∧
    (∃ answer u, w.change? .confirm units = some (answer, u) ∧
      ∀ f, answer = .error f → f.code ≠ .insufficientStock) ∧
    (∀ t, w.Makes .reserve units t → t.Makes .release units w) ∧
    ∀ (change : Change) (a b sum : Int64), 0 < a → 0 < b → Word.plus? a b = some sum →
      ∀ u, (∃ t, w.Makes change a t ∧ t.Makes change b u) ↔ w.Makes change sum u := by
  rcases exists_words hlow hhigh with ⟨s, rfl⟩
  refine ⟨?_, ?_, ?_, ?_, ?_⟩
  · rw [StockItem.exists_makes_iff, StockItem.exists_makes_iff, StockItem.exists_apply_iff,
      StockItem.exists_apply_iff]
    rfl
  · intro t' ht'
    rcases StockItem.makes_iff.1 ht' with ⟨t, ht, rfl⟩
    rcases StockItem.exists_decrement ht with ⟨u, hu⟩
    have hconfirm := StockItem.confirm_iff.2 ⟨t, ht, hu⟩
    exact ⟨u.words, StockItem.makes_iff.2 ⟨u, hu, rfl⟩, StockItem.makes_iff.2 ⟨u, hconfirm, rfl⟩⟩
  · refine ⟨_, _, s.change?_words units .confirm, ?_⟩
    intro f hf
    rcases StockItem.code_of_confirm (StockItem.apply_of_outcome hf) with hcode | hcode
    · rw [hcode]
      decide
    · rw [hcode]
      decide
  · intro t' ht'
    rcases StockItem.makes_iff.1 ht' with ⟨t, ht, rfl⟩
    exact StockItem.makes_iff.2 ⟨s, StockItem.reserve_iff_release.1 ht, rfl⟩
  · intro change a b sum ha hb hsum u'
    rw [Int64.lt_iff_toInt_lt, Int64.toInt_zero] at ha hb
    rw [Word.plus?_eq_some_iff] at hsum
    constructor
    · rintro ⟨t', ht', hu'⟩
      rcases StockItem.makes_iff.1 ht' with ⟨t, ht, rfl⟩
      rcases StockItem.makes_iff.1 hu' with ⟨u, hu, rfl⟩
      have hboth := (StockItem.apply_add_iff ha hb).1 ⟨t, ht, hu⟩
      rw [← hsum] at hboth
      exact StockItem.makes_iff.2 ⟨u, hboth, rfl⟩
    · intro hu'
      rcases StockItem.makes_iff.1 hu' with ⟨u, hboth, rfl⟩
      rw [hsum] at hboth
      rcases (StockItem.apply_add_iff ha hb).2 hboth with ⟨t, ht, hu⟩
      exact ⟨t.words, StockItem.makes_iff.2 ⟨t, ht, rfl⟩, StockItem.makes_iff.2 ⟨u, hu, rfl⟩⟩

namespace WordItem

/-- Of an item that is full all three reserved units are confirmed, at once or one after two. -/
theorem changes_compose_brimful :
    0 ≤ brimful.reserved ∧ brimful.reserved ≤ brimful.quantity ∧
      (∃ t u, brimful.Makes .release 3 t ∧ t.Makes .decrement 3 u ∧ brimful.Makes .confirm 3 u) ∧
      (∃ t u, brimful.Makes .confirm 1 t ∧ t.Makes .confirm 2 u ∧ brimful.Makes .confirm 3 u) ∧
      ∃ t, brimful.Makes .reserve (.maxValue - 3) t ∧ t.Makes .release (.maxValue - 3) brimful := by
  have hlow : 0 ≤ brimful.reserved := by decide
  have hhigh : brimful.reserved ≤ brimful.quantity := by decide
  rcases changes_compose hlow hhigh 3 with ⟨-, hrelease, -, -, hsum⟩
  rcases changes_compose hlow hhigh (.maxValue - 3) with ⟨-, -, -, hreserve, -⟩
  refine ⟨hlow, hhigh, ?_, ?_, ?_⟩
  · rcases hrelease _ rfl with ⟨u, hu, hconfirm⟩
    exact ⟨_, u, rfl, hu, hconfirm⟩
  · rcases (hsum .confirm 1 2 3 (by decide) (by decide) (by decide) _).2 rfl with ⟨t, ht, hu⟩
    exact ⟨t, _, ht, hu, rfl⟩
  · exact ⟨_, rfl, hreserve _ rfl⟩

end WordItem
end StockLedger
