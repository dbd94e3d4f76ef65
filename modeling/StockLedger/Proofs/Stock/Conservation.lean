import Mathlib.Algebra.BigOperators.Group.List.Basic
import Mathlib.Algebra.Order.Ring.Int
import Mathlib.Tactic.Common
import StockLedger.Proofs.Stock.Words

/-!
# The counts of an item over all changes

Changes may come in any order and number, with any units that fit into a word. Along all of them the
counts stay those of an item, no arithmetic overflows, and at the end the counts are what the
changes that succeeded add up to.

* `WordItem.chronicle?` : changes one after another;
* `WordItem.Step.Sound` : what is true of every change;
* `StockItem.chronicle?_words` : the changes in words are those of an item;
* `WordItem.total` : the units of one kind of change that succeeded;
* `changes_conserve_units` : the counts at the end, and that the order does not matter.
-/

namespace StockLedger

open StockItem (Change)

/-! ## Changes one after another -/

namespace WordItem

/-- One change: the item before it, what was asked for, the answer, and the item after it. -/
structure Step where
  before : WordItem
  change : Change
  units : Int64
  answer : Answer Unit
  after : WordItem

/-- Makes changes one after another, each to what the one before it has left. -/
def chronicle? (w : WordItem) : List (Change × Int64) → Option (List Step)
  | [] => some []
  | (change, units) :: calls =>
      (w.change? change units).bind fun outcome =>
        (outcome.2.chronicle? calls).map fun steps =>
          ⟨w, change, units, outcome.1, outcome.2⟩ :: steps

/-- The item as the last step has left it. -/
def last (w : WordItem) : List Step → WordItem
  | [] => w
  | step :: steps => step.after.last steps

/-- What was asked for in a step. -/
def Step.call (step : Step) : Change × Int64 :=
  (step.change, step.units)

/-- The units of the changes of one kind that have succeeded. -/
def total (change : Change) (steps : List Step) : Int :=
  ((steps.filter fun step => step.answer.isOk && step.change == change).map fun step =>
    step.units.toInt).sum

/-- All but the counts is the same. -/
structure SameRecord (w w' : WordItem) : Prop where
  id : w'.id = w.id
  productId : w'.productId = w.productId
  version : w'.version = w.version
  createdAt : w'.createdAt = w.createdAt
  updatedAt : w'.updatedAt = w.updatedAt

/-- What is true of every change. -/
structure Step.Sound (step : Step) : Prop where
  reserved_nonneg : 0 ≤ step.after.reserved
  reserved_le : step.after.reserved ≤ step.after.quantity
  available : ∃ a, step.after.available? = some a ∧
    a.toInt = step.after.quantity.toInt - step.after.reserved.toInt
  /-- A change that is refused changes nothing. -/
  refused : ∀ f, step.answer = .error f → step.after = step.before
  same : step.before.SameRecord step.after
  /-- The same comes of the change when numbers have no bounds. -/
  exact : ∃ s t : StockItem, s.words = step.before ∧ t.words = step.after ∧
    s.outcome step.change step.units.toInt = (step.answer, t)

theorem SameRecord.refl (w : WordItem) : w.SameRecord w :=
  ⟨rfl, rfl, rfl, rfl, rfl⟩

theorem SameRecord.symm {v w : WordItem} (h : v.SameRecord w) : w.SameRecord v :=
  ⟨h.id.symm, h.productId.symm, h.version.symm, h.createdAt.symm, h.updatedAt.symm⟩

theorem SameRecord.trans {u v w : WordItem} (h : u.SameRecord v) (h' : v.SameRecord w) :
    u.SameRecord w :=
  ⟨h'.id.trans h.id, h'.productId.trans h.productId, h'.version.trans h.version,
    h'.createdAt.trans h.createdAt, h'.updatedAt.trans h.updatedAt⟩

/-- Two items of one record are the same if their counts are. -/
theorem SameRecord.eq_of_counts {u v w : WordItem} (hv : u.SameRecord v) (hw : u.SameRecord w)
    (hquantity : v.quantity.toInt = w.quantity.toInt)
    (hreserved : v.reserved.toInt = w.reserved.toInt) : v = w := by
  rcases hv with ⟨hid, hproduct, hversion, hcreated, hupdated⟩
  rcases hw with ⟨hid', hproduct', hversion', hcreated', hupdated'⟩
  rw [Int64.toInt_inj] at hquantity hreserved
  cases v
  cases w
  simp_all only

theorem total_cons (change : Change) (step : Step) (steps : List Step) :
    total change (step :: steps) =
      (if step.answer.isOk && step.change == change then step.units.toInt else 0) +
        total change steps := by
  unfold total
  rw [List.filter_cons]
  split
  · rw [List.map_cons, List.sum_cons]
  · rw [Int.zero_add]

theorem total_cons_of_ok (change : Change) {step : Step} (steps : List Step)
    (h : step.answer = .ok ()) :
    total change (step :: steps) =
      (if step.change == change then step.units.toInt else 0) + total change steps := by
  rw [total_cons, h]
  rfl

theorem total_cons_of_error (change : Change) {step : Step} {f : Fault} (steps : List Step)
    (h : step.answer = .error f) : total change (step :: steps) = total change steps := by
  rw [total_cons, h]
  exact Int.zero_add _

/-- When nothing was refused, the totals are those of what was asked for. -/
theorem total_of_all_ok {change : Change} {steps : List Step}
    (h : ∀ step ∈ steps, step.answer = .ok ()) :
    total change steps =
      (((steps.map Step.call).filter fun call => call.1 == change).map fun call =>
        call.2.toInt).sum := by
  have hmade : steps.filter (fun step => step.answer.isOk && step.change == change) =
      steps.filter ((fun call : Change × Int64 => call.1 == change) ∘ Step.call) :=
    List.filter_congr fun step hstep => by rw [h step hstep]; rfl
  rw [total, hmade, List.filter_map, List.map_map]
  rfl

end WordItem

/-! ## One change -/

namespace StockItem

/-- How many more units are owned after a change of so many units. -/
def Change.gains : Change → Int → Int
  | .add, units => units
  | .confirm, units | .decrement, units => -units
  | .reserve, _ | .release, _ => 0

/-- A change that succeeds moves the units that are owned, and no time. -/
theorem gains_of_apply {s t : StockItem} {change : Change} {units : Int}
    (h : s.apply change units = .ok t) :
    t.quantity = s.quantity + change.gains units ∧ t.createdAt = s.createdAt ∧
      t.updatedAt = s.updatedAt := by
  cases change with
  | reserve =>
    simp only [apply, reserve] at h
    split at h
    · split at h <;> cases h
      exact ⟨(Int.add_zero _).symm, rfl, rfl⟩
    · cases h
  | release =>
    simp only [apply, release] at h
    split at h
    · split at h <;> cases h
      exact ⟨(Int.add_zero _).symm, rfl, rfl⟩
    · cases h
  | confirm =>
    simp only [apply, confirm] at h
    split at h
    · split at h
      · split at h <;> cases h
        exact ⟨Int.sub_eq_add_neg, rfl, rfl⟩
      · cases h
    · cases h
  | add =>
    simp only [apply, add] at h
    split at h
    · split at h <;> cases h
      exact ⟨rfl, rfl, rfl⟩
    · cases h
  | decrement =>
    simp only [apply, decrement] at h
    split at h
    · split at h <;> cases h
      exact ⟨Int.sub_eq_add_neg, rfl, rfl⟩
    · cases h

/-- A change is made, and moves the counts by its units, or is refused and moves nothing. -/
theorem outcome_cases (s : StockItem) (change : Change) (units : Int) :
    (∃ t, s.outcome change units = (.ok (), t) ∧ t.quantity = s.quantity + change.gains units ∧
      t.reserved = s.reserved + change.claims units ∧ s.words.SameRecord t.words) ∨
    ∃ f, s.outcome change units = (.error f, s) := by
  unfold outcome
  cases happly : s.apply change units with
  | ok t =>
    rcases gains_of_apply happly with ⟨hquantity, hcreated, hupdated⟩
    have hchanged := apply_ok happly
    exact .inl ⟨t, rfl, hquantity, hchanged.reserved,
      ⟨hchanged.id, hchanged.productId, hchanged.version, hcreated, hupdated⟩⟩
  | error f => exact .inr ⟨f, rfl⟩

/-- A change of an item, in words. -/
def step (s : StockItem) (change : Change) (units : Int64) : WordItem.Step :=
  let outcome := s.outcome change units.toInt
  ⟨s.words, change, units, outcome.1, outcome.2.words⟩

theorem sound_step (s : StockItem) (change : Change) (units : Int64) :
    (s.step change units).Sound where
  reserved_nonneg := by
    rw [Int64.le_iff_toInt_le, Int64.toInt_zero]
    exact (toInt_reserved_words _).symm ▸ (s.outcome change units.toInt).2.reserved_nonneg
  reserved_le := by
    rw [Int64.le_iff_toInt_le]
    exact (toInt_reserved_words _).symm ▸ (toInt_quantity_words _).symm ▸
      (s.outcome change units.toInt).2.reserved_le
  available := by
    rcases available?_words (s.outcome change units.toInt).2 with ⟨a, ha, hvalue⟩
    exact ⟨a, ha, by rw [hvalue, available, step, toInt_quantity_words, toInt_reserved_words]⟩
  refused := by
    intro f hf
    rcases s.outcome_cases change units.toInt with ⟨t, hout, -⟩ | ⟨f', hout⟩
    · rw [step, hout] at hf
      cases hf
    · rw [step, hout]
  same := by
    rcases s.outcome_cases change units.toInt with ⟨t, hout, -, -, hsame⟩ | ⟨f', hout⟩
    · rw [step, hout]
      exact hsame
    · rw [step, hout]
      exact .refl _
  exact := ⟨s, _, rfl, rfl, rfl⟩

/-! ## All changes -/

/-- The changes of an item one after another, in words. -/
def chronicle (s : StockItem) : List (Change × Int64) → List WordItem.Step
  | [] => []
  | (change, units) :: calls =>
      s.step change units :: (s.outcome change units.toInt).2.chronicle calls

/-- Changes in words never lack an answer, and are those of the item. -/
theorem chronicle?_words (s : StockItem) (calls : List (Change × Int64)) :
    s.words.chronicle? calls = some (s.chronicle calls) := by
  induction calls generalizing s with
  | nil => rfl
  | cons call calls ih =>
    rw [WordItem.chronicle?, s.change?_words, Option.bind_some, wordsOutcome, ih]
    rfl

theorem calls_chronicle (s : StockItem) (calls : List (Change × Int64)) :
    (s.chronicle calls).map WordItem.Step.call = calls := by
  induction calls generalizing s with
  | nil => rfl
  | cons call calls ih => rw [chronicle, List.map_cons, ih, step, WordItem.Step.call]

theorem sound_chronicle (s : StockItem) (calls : List (Change × Int64)) :
    ∀ step ∈ s.chronicle calls, step.Sound ∧ s.words.SameRecord step.after := by
  induction calls generalizing s with
  | nil => exact fun _ h => nomatch h
  | cons call calls ih =>
    intro step hstep
    have hsound := s.sound_step call.1 call.2
    rcases List.mem_cons.1 hstep with rfl | hlater
    · exact ⟨hsound, hsound.same⟩
    · rcases ih _ step hlater with ⟨hlast, hsame⟩
      exact ⟨hlast, hsound.same.trans hsame⟩

/-- The item at the end has the same record, and the counts that the totals give. -/
structure Balanced (w last : WordItem) (steps : List WordItem.Step) : Prop where
  same : w.SameRecord last
  quantity : last.quantity.toInt =
    w.quantity.toInt + WordItem.total .add steps - WordItem.total .decrement steps -
      WordItem.total .confirm steps
  reserved : last.reserved.toInt =
    w.reserved.toInt + WordItem.total .reserve steps - WordItem.total .release steps -
      WordItem.total .confirm steps

theorem balanced_chronicle (s : StockItem) (calls : List (Change × Int64)) :
    Balanced s.words (s.words.last (s.chronicle calls)) (s.chronicle calls) := by
  -- The first change moves the counts that the others start with, and the total of its own kind.
  induction calls generalizing s with
  | nil =>
    exact ⟨.refl _, by simp [chronicle, WordItem.last, WordItem.total],
      by simp [chronicle, WordItem.last, WordItem.total]⟩
  | cons call calls ih =>
    rcases call with ⟨change, units⟩
    rcases s.outcome_cases change units.toInt with ⟨t, hout, hquantity, hreserved, hsame⟩ |
      ⟨f, hout⟩
    · rcases ih t with ⟨hlast, hlastQuantity, hlastReserved⟩
      rw [toInt_quantity_words, hquantity] at hlastQuantity
      rw [toInt_reserved_words, hreserved] at hlastReserved
      rw [chronicle, step, hout]
      refine ⟨hsame.trans hlast, ?_, ?_⟩
      · simp only [WordItem.last, WordItem.total_cons_of_ok, toInt_quantity_words, hlastQuantity]
        cases change <;> simp [Change.gains] <;> omega
      · simp only [WordItem.last, WordItem.total_cons_of_ok, toInt_reserved_words, hlastReserved]
        cases change <;> simp [Change.claims] <;> omega
    · rcases ih s with ⟨hlast, hlastQuantity, hlastReserved⟩
      have htotal (c : Change) : WordItem.total c
          (⟨s.words, change, units, .error f, s.words⟩ :: s.chronicle calls) =
            WordItem.total c (s.chronicle calls) := WordItem.total_cons_of_error c _ rfl
      rw [chronicle, step, hout]
      refine ⟨hlast, ?_, ?_⟩
      · rw [htotal, htotal, htotal]
        exact hlastQuantity
      · rw [htotal, htotal, htotal]
        exact hlastReserved

/-- Two orders of the same changes give the same item, if no change is refused in either. -/
theorem last_eq_of_perm (s : StockItem) {calls calls' : List (Change × Int64)}
    (hperm : calls.Perm calls') (hok : ∀ step ∈ s.chronicle calls, step.answer = .ok ())
    (hok' : ∀ step ∈ s.chronicle calls', step.answer = .ok ()) :
    s.words.last (s.chronicle calls) = s.words.last (s.chronicle calls') := by
  have hbalanced := s.balanced_chronicle calls
  have hbalanced' := s.balanced_chronicle calls'
  have htotal (change : Change) :
      WordItem.total change (s.chronicle calls) = WordItem.total change (s.chronicle calls') := by
    rw [WordItem.total_of_all_ok hok, WordItem.total_of_all_ok hok', calls_chronicle,
      calls_chronicle]
    exact ((hperm.filter _).map _).sum_eq
  -- All but the counts never changes, and the totals give the counts.
  refine hbalanced.same.eq_of_counts hbalanced'.same ?_ ?_
  · rw [hbalanced.quantity, hbalanced'.quantity, htotal, htotal, htotal]
  · rw [hbalanced.reserved, hbalanced'.reserved, htotal, htotal, htotal]

end StockItem

open WordItem in
/--
Any changes to an item in words, in any order and of any numbers of units. All of them have an
answer, so that nothing overflows; each of them leaves counts that are those of an item, and
changes nothing if it is refused. The counts at the end are what the changes that succeeded add up
to, so that changes which all succeed may be made in any other order in which they do.
-/
theorem changes_conserve_units {w : WordItem} (hw : w.Built) (calls : List (Change × Int64)) :
    ∃ steps, w.chronicle? calls = some steps ∧ steps.map Step.call = calls ∧
      (∀ step ∈ steps, step.Sound ∧ w.SameRecord step.after) ∧
      (w.last steps).quantity.toInt =
        w.quantity.toInt + total .add steps - total .decrement steps - total .confirm steps ∧
      (w.last steps).reserved.toInt =
        w.reserved.toInt + total .reserve steps - total .release steps - total .confirm steps ∧
      ∀ calls' steps', calls.Perm calls' → w.chronicle? calls' = some steps' →
        (∀ step ∈ steps, step.answer = .ok ()) → (∀ step ∈ steps', step.answer = .ok ()) →
        w.last steps = w.last steps' := by
  rcases built_iff.1 hw with ⟨s, rfl⟩
  have hbalanced := s.balanced_chronicle calls
  refine ⟨s.chronicle calls, s.chronicle?_words calls, s.calls_chronicle calls,
    s.sound_chronicle calls, hbalanced.quantity, hbalanced.reserved, ?_⟩
  intro calls' steps' hperm hsteps' hok hok'
  rw [s.chronicle?_words, Option.some.injEq] at hsteps'
  subst hsteps'
  exact s.last_eq_of_perm hperm hok hok'

namespace WordItem

/-- As many units as can be counted, and three of them reserved. -/
def brimful : WordItem where
  id := ⟨.ofNat 1⟩
  productId := ⟨.ofNat 2⟩
  quantity := .maxValue
  reserved := 3
  version := 7
  createdAt := .epoch
  updatedAt := .epoch

theorem built_brimful : brimful.Built :=
  .restore (rfl : restore brimful.id brimful.productId .maxValue 3 7 .epoch .epoch = .ok brimful)

/-- One unit more is refused, and so is a negative number of them, until some are sold. -/
def busy : List (Change × Int64) :=
  [(.add, 1), (.reserve, .minValue), (.confirm, 2), (.add, 2), (.reserve, .maxValue),
    (.decrement, 5)]

/-- Of six changes to an item that is full three are made. -/
theorem changes_conserve_units_brimful :
    brimful.Built ∧ ∃ steps, brimful.chronicle? busy = some steps ∧
      steps.map (fun step => step.answer.isOk) = [false, false, true, true, false, true] ∧
      (brimful.last steps).quantity.toInt = 9223372036854775802 ∧
      (brimful.last steps).reserved.toInt = 1 := by
  rcases changes_conserve_units built_brimful busy with ⟨steps, hsteps, -, -, hquantity, hreserved, -⟩
  have hbusy := hsteps
  cases hbusy
  exact ⟨built_brimful, _, hsteps, rfl, hquantity, hreserved⟩

end WordItem
end StockLedger
