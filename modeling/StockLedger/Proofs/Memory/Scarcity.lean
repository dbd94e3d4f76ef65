import Mathlib.Data.List.Nodup
import Mathlib.Data.List.Perm.Basic
import Mathlib.Tactic.Common
import StockLedger.Proofs.Memory.Cuts
import StockLedger.Proofs.Memory.Items
import StockLedger.Service.Basic

/-!
# Reports of scarce stock

* `Availability.Scarcer` : the order of a report, by what is available, then by item;
* `MemoryLedger.Shortage` : the list of all scarce items in this order, of which there is one only;
* `MemoryLedger.report` : what a ledger reports for a threshold and a limit;
* `MemoryLedger.Reports` : all that a report must be, and `reports_report` : it is all that;
* `report_prefix_of_narrower`, `report_prefix_of_le` : reports for different limits or thresholds
  agree as far as the shorter one goes.
-/

namespace StockLedger

/-- What passes a test comes first if nothing that passes it comes after something that fails. -/
theorem filter_prefix_of_pairwise {α : Type} {p : α → Bool} {xs : List α}
    (h : xs.Pairwise fun a b => p b = true → p a = true) : xs.filter p <+: xs := by
  induction xs with
  | nil => exact List.prefix_refl []
  | cons a rest ih =>
    obtain ⟨hfirst, hrest⟩ := List.pairwise_cons.1 h
    cases hp : p a with
    | true =>
      rw [List.filter_cons_of_pos hp]
      exact (List.cons_prefix_cons).2 ⟨rfl, ih hrest⟩
    | false =>
      -- Nothing after a failure passes.
      have hnone : rest.filter p = [] := by
        refine List.filter_eq_nil_iff.2 fun b hb hpass => ?_
        exact Bool.false_ne_true (hp.symm.trans (hfirst b hb hpass))
      rw [List.filter_cons_of_neg (by simp [hp]), hnone]
      exact List.nil_prefix

/-! ## The order of a report -/

/-- Less is available of one item than of another; of equally scarce items the identity decides. -/
def Availability.Scarcer (a b : Availability) : Prop :=
  a.available < b.available ∨
    a.available = b.available ∧ a.itemId.uuid.value < b.itemId.uuid.value

theorem Availability.Scarcer.asymm {a b : Availability} (h : a.Scarcer b) : ¬ b.Scarcer a := by
  unfold Scarcer at h ⊢
  omega

theorem Availability.scarcer_irrefl (a : Availability) : ¬ a.Scarcer a :=
  fun h => h.asymm h

namespace MemoryLedger

variable {l l' : MemoryLedger} {threshold threshold' : Int} {limit wider : UInt64}
  {all all' : List Availability}

/-! ## All scarce items -/

/-- What is reported of the items of which no more than a threshold is available, scarcest first. -/
structure Shortage (l : MemoryLedger) (threshold : Int) (all : List Availability) : Prop where
  mem_iff : ∀ a, a ∈ all ↔
    ∃ s, l.items.find? s.id = some s ∧ s.quantity - s.reserved ≤ threshold ∧ a = .ofItem s
  sorted : all.Pairwise Availability.Scarcer

theorem Shortage.nodup (h : l.Shortage threshold all) : all.Nodup := by
  refine h.sorted.imp fun hscarcer => ?_
  rintro rfl
  exact Availability.scarcer_irrefl _ hscarcer

/-- There is only one such list. -/
theorem Shortage.unique (h : l.Shortage threshold all) (h' : l.Shortage threshold all') :
    all = all' := by
  have hperm : all.Perm all' := by
    rw [List.perm_ext_iff_of_nodup h.nodup h'.nodup]
    exact fun a => (h.mem_iff a).trans (h'.mem_iff a).symm
  refine hperm.eq_of_pairwise ?_ h.sorted h'.sorted
  intro a b _ _ hab hba
  exact absurd hba hab.asymm

/-- The list tells what is stored, not how it is stored. -/
theorem Shortage.of_items (h : l.Shortage threshold all)
    (hitems : ∀ id, l'.items.find? id = l.items.find? id) : l'.Shortage threshold all where
  mem_iff := by
    intro a
    simp only [hitems]
    exact h.mem_iff a
  sorted := h.sorted

/-- One item appears once. -/
theorem Shortage.distinct (h : l.Shortage threshold all) :
    all.Pairwise fun a b => a.itemId ≠ b.itemId := by
  refine h.sorted.imp_of_mem ?_
  intro a b ha hb hscarcer hid
  obtain ⟨s, hs, -, rfl⟩ := (h.mem_iff a).1 ha
  obtain ⟨t, ht, -, rfl⟩ := (h.mem_iff b).1 hb
  have hsame : s = t := by
    have hid : s.id = t.id := hid
    rw [hid] at hs
    exact Option.some.inj (hs.symm.trans ht)
  subst hsame
  exact Availability.scarcer_irrefl _ hscarcer

/-- Below a lower threshold there are the first of the items below a higher one. -/
theorem Shortage.front (h : l.Shortage threshold all) (h' : l.Shortage threshold' all')
    (hle : threshold ≤ threshold') : all <+: all' := by
  let low (a : Availability) : Bool := a.available ≤ threshold
  have hlow : l.Shortage threshold (all'.filter low) := by
    constructor
    · intro a
      rw [List.mem_filter, h'.mem_iff]
      constructor
      · rintro ⟨⟨s, hs, -, rfl⟩, havailable⟩
        exact ⟨s, hs, of_decide_eq_true havailable, rfl⟩
      · rintro ⟨s, hs, havailable, rfl⟩
        exact ⟨⟨s, hs, le_trans havailable hle, rfl⟩, decide_eq_true havailable⟩
    · exact h'.sorted.filter low
  -- There is one list for each threshold, so the lower one is cut out of the higher one.
  rw [h.unique hlow]
  refine filter_prefix_of_pairwise (h'.sorted.imp ?_)
  intro a b hscarcer hb
  have hb : b.available ≤ threshold := of_decide_eq_true hb
  refine decide_eq_true ?_
  unfold Availability.Scarcer at hscarcer
  omega

/-! ## What a ledger reports -/

/-- The counts of the scarcest items. -/
def report (l : MemoryLedger) (threshold : Int) (limit : UInt64) : List Availability :=
  (l.lowStock threshold limit).map .ofItem

/-- How many items there are of which no more than a threshold is available. -/
def scarceCount (l : MemoryLedger) (threshold : Int) : Nat :=
  l.items.values.countP fun s => s.quantity - s.reserved ≤ threshold

/-- A report begins like the report without a limit, and ends where the limit says. -/
theorem report_eq_takeLimit (l : MemoryLedger) (threshold : Int) (limit : UInt64) :
    l.report threshold limit = takeLimit limit (l.report threshold 0) := by
  have hall : l.lowStock threshold 0 = (l.items.values.filter fun s =>
      s.available ≤ threshold).mergeSort scarcer := by
    rw [lowStock, takeLimit, if_pos rfl]
  rw [report, report, takeLimit_map, hall]
  rfl

theorem mem_report_zero (hl : l.Keyed) (a : Availability) : a ∈ l.report threshold 0 ↔
    ∃ s, l.items.find? s.id = some s ∧ s.quantity - s.reserved ≤ threshold ∧ a = .ofItem s := by
  have hitem (s : StockItem) : s ∈ l.lowStock threshold 0 ↔
      l.items.find? s.id = some s ∧ s.quantity - s.reserved ≤ threshold := by
    have hsort := (List.mergeSort_perm (l.items.values.filter fun s =>
      s.available ≤ threshold) scarcer).mem_iff (a := s)
    rw [lowStock, takeLimit, if_pos rfl, hsort, List.mem_filter, hl.mem_iff (.refl _),
      decide_eq_true_iff]
    exact Iff.rfl
  rw [report, List.mem_map]
  constructor
  · rintro ⟨s, hs, rfl⟩
    exact ⟨s, ((hitem s).1 hs).1, ((hitem s).1 hs).2, rfl⟩
  · rintro ⟨s, hs, havailable, rfl⟩
    exact ⟨s, (hitem s).2 ⟨hs, havailable⟩, rfl⟩

/-- Sorting different items, ties included, leaves no two of them level. -/
theorem sorted_report_zero (hl : l.Keyed) (threshold : Int) :
    (l.report threshold 0).Pairwise Availability.Scarcer := by
  let low := l.items.values.filter fun s => s.available ≤ threshold
  have hperm : (low.mergeSort scarcer).Perm low := List.mergeSort_perm ..
  have hnodup : (low.mergeSort scarcer).Nodup :=
    hperm.nodup_iff.2 ((hl.nodup (.refl _)).filter _)
  have hrow (s : StockItem) (hs : s ∈ low.mergeSort scarcer) : l.items.find? s.id = some s :=
    (hl.mem_iff (.refl _)).1 (List.mem_of_mem_filter (hperm.subset hs))
  refine List.pairwise_map.2 (((pairwise_mergeSort_scarcer low).and hnodup).imp_of_mem ?_)
  rintro s t hs ht ⟨hscarcer, hne⟩
  rcases scarcer_iff.1 hscarcer with hlt | ⟨heq, hid⟩
  · exact .inl hlt
  · refine .inr ⟨heq, lt_of_le_of_ne hid fun hvalue => hne ?_⟩
    -- Items of one identity are one item.
    have hsame : s.id = t.id :=
      id_eq_of_scarcer hscarcer (scarcer_iff.2 (.inr ⟨heq.symm, hvalue ▸ le_refl _⟩))
    have hs := hrow s hs
    rw [hsame] at hs
    exact Option.some.inj (hs.symm.trans (hrow t ht))

theorem shortage_report (hl : l.Keyed) (threshold : Int) :
    l.Shortage threshold (l.report threshold 0) :=
  ⟨mem_report_zero hl, sorted_report_zero hl threshold⟩

theorem length_report_zero (l : MemoryLedger) (threshold : Int) :
    (l.report threshold 0).length = l.scarceCount threshold := by
  rw [report, lowStock, takeLimit, if_pos rfl, List.length_map, List.length_mergeSort,
    ← List.countP_eq_length_filter]
  rfl

/-- All that a report must be. -/
structure Reports (l : MemoryLedger) (threshold : Int) (limit : UInt64)
    (found : List Availability) : Prop where
  scarce : ∀ a ∈ found,
    ∃ s, l.items.find? s.id = some s ∧ s.quantity - s.reserved ≤ threshold ∧ a = .ofItem s
  distinct : (found.map Availability.itemId).Nodup
  ascending : found.Pairwise Availability.Scarcer
  length : found.length =
    if limit = 0 then l.scarceCount threshold else min limit.toNat (l.scarceCount threshold)
  complete : limit = 0 → ∀ s, l.items.find? s.id = some s →
    s.quantity - s.reserved ≤ threshold → .ofItem s ∈ found
  later : ∀ s, l.items.find? s.id = some s → s.quantity - s.reserved ≤ threshold →
    .ofItem s ∉ found → ∀ a ∈ found, a.Scarcer (.ofItem s)

theorem reports_report (hl : l.Keyed) (threshold : Int) (limit : UInt64) :
    l.Reports threshold limit (l.report threshold limit) := by
  have hall := shortage_report hl threshold
  have hfront : l.report threshold limit <+: l.report threshold 0 := by
    rw [report_eq_takeLimit]
    exact takeLimit_front limit _
  constructor
  · intro a ha
    exact (hall.mem_iff a).1 (hfront.subset ha)
  · exact List.pairwise_map.2 (hall.distinct.sublist hfront.sublist)
  · exact hall.sorted.sublist hfront.sublist
  · rw [report_eq_takeLimit, length_takeLimit, length_report_zero]
  · rintro rfl s hs havailable
    exact (hall.mem_iff _).2 ⟨s, hs, havailable, rfl⟩
  · intro s hs havailable hout
    rw [report_eq_takeLimit] at hout ⊢
    exact after_takeLimit hall.sorted ((hall.mem_iff _).2 ⟨s, hs, havailable, rfl⟩) hout

/-! ## Different reports -/

/-- The report for a narrower limit is the beginning of the one for a wider limit. -/
theorem report_prefix_of_narrower (h : Narrower limit wider) (l : MemoryLedger)
    (threshold : Int) : l.report threshold limit <+: l.report threshold wider := by
  rw [report_eq_takeLimit l threshold limit, report_eq_takeLimit l threshold wider]
  exact takeLimit_prefix_of_narrower h _

/-- Without a limit, the report for a lower threshold is the beginning of that for a higher one. -/
theorem report_prefix_of_le (hl : l.Keyed) (h : threshold ≤ threshold') :
    l.report threshold 0 <+: l.report threshold' 0 :=
  (shortage_report hl threshold).front (shortage_report hl threshold') h

/-- The same is reported in the same order, however the ledger lists its items. -/
theorem report_eq_of_items (hl : l.Keyed) (hitems : ∀ id, l'.items.find? id = l.items.find? id)
    (threshold : Int) (limit : UInt64) : l'.report threshold limit = l.report threshold limit := by
  have hl' : l'.Keyed := by
    intro id s hs
    rw [hitems] at hs
    exact hl id s hs
  have hall : l'.report threshold 0 = l.report threshold 0 :=
    (shortage_report hl' threshold).unique ((shortage_report hl threshold).of_items hitems)
  calc
    l'.report threshold limit = takeLimit limit (l'.report threshold 0) :=
      report_eq_takeLimit l' threshold limit
    _ = takeLimit limit (l.report threshold 0) := by rw [hall]
    _ = l.report threshold limit := (report_eq_takeLimit l threshold limit).symm

end MemoryLedger
end StockLedger
