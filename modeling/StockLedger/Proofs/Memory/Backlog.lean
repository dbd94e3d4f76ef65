import Mathlib.Data.List.Nodup
import Mathlib.Data.List.Perm.Basic
import Mathlib.Tactic.Common
import StockLedger.Proofs.Memory.Cuts
import StockLedger.Proofs.Memory.Reservations
import StockLedger.Proofs.Time.Order

/-!
# Overdue claims

* `Reservation.Sooner` : the order in which overdue claims are found;
* `MemoryReservations.Backlog` : the list of all overdue claims in this order;
* `Backlog.expired_eq` : a search finds the first of them;
* `backlog_expired` : there is such a list, and `Backlog.tail` : it loses a claim that is settled.
-/

namespace StockLedger

/-- One claim expired before another one; claims that expired at once go by identity. -/
def Reservation.Sooner (a b : Reservation) : Prop :=
  a.expiresAt < b.expiresAt ∨ a.expiresAt = b.expiresAt ∧ a.id.uuid.value < b.id.uuid.value

namespace MemoryReservations

/-- All claims that are still pending though they have expired, the oldest first. -/
structure Backlog (m : MemoryReservations) (now : Timestamp) (rs : List Reservation) : Prop where
  mem_iff : ∀ r, r ∈ rs ↔
    m.rows.find? r.id = some r ∧ r.status = .pending ∧ r.expiresAt < now
  sorted : rs.Pairwise Reservation.Sooner

variable {m : MemoryReservations} {now : Timestamp} {rs : List Reservation} {a b c : Reservation}

/-! ## The order -/

theorem earlier_iff : earlier Reservation.expiresAt a b = true ↔
    a.expiresAt < b.expiresAt ∨ a.expiresAt = b.expiresAt ∧ a.id.uuid.value ≤ b.id.uuid.value := by
  simp [earlier]

theorem earlier_trans (h : earlier Reservation.expiresAt a b = true)
    (h' : earlier Reservation.expiresAt b c = true) :
    earlier Reservation.expiresAt a c = true := by
  rw [earlier_iff] at h h' ⊢
  rcases h with h | ⟨h, hid⟩
  · rcases h' with h' | ⟨h', -⟩
    · exact .inl (Timestamp.lt_trans h h')
    · exact .inl (h' ▸ h)
  · rcases h' with h' | ⟨h', hid'⟩
    · exact .inl (h ▸ h')
    · exact .inr ⟨h.trans h', le_trans hid hid'⟩

theorem earlier_total (a b : Reservation) :
    (earlier Reservation.expiresAt a b || earlier Reservation.expiresAt b a) = true := by
  rw [Bool.or_eq_true, earlier_iff, earlier_iff]
  rcases Timestamp.lt_trichotomy a.expiresAt b.expiresAt with h | h | h
  · exact .inl (.inl h)
  · rcases le_total a.id.uuid.value b.id.uuid.value with hid | hid
    · exact .inl (.inr ⟨h, hid⟩)
    · exact .inr (.inr ⟨h.symm, hid⟩)
  · exact .inr (.inl h)

theorem pairwise_mergeSort_earlier (rs : List Reservation) :
    (rs.mergeSort (earlier Reservation.expiresAt)).Pairwise
      fun a b => earlier Reservation.expiresAt a b = true :=
  @List.pairwise_mergeSort _ (earlier Reservation.expiresAt) (fun _ _ _ => earlier_trans)
    earlier_total rs

theorem id_eq_of_earlier (h : earlier Reservation.expiresAt a b = true)
    (h' : earlier Reservation.expiresAt b a = true) : a.id = b.id := by
  rw [earlier_iff] at h h'
  have hvalue : a.id.uuid.value = b.id.uuid.value := by
    rcases h with h | ⟨h, hid⟩
    · rcases h' with h' | ⟨h', -⟩
      · exact absurd (Timestamp.lt_trans h h') (Timestamp.lt_irrefl _)
      · exact absurd (h' ▸ h) (Timestamp.lt_irrefl _)
    · rcases h' with h' | ⟨-, hid'⟩
      · exact absurd (h ▸ h') (Timestamp.lt_irrefl _)
      · exact le_antisymm hid hid'
  rcases a with ⟨⟨⟨x, _⟩⟩⟩
  rcases b with ⟨⟨⟨y, _⟩⟩⟩
  simpa using hvalue

theorem earlier_of_sooner (h : a.Sooner b) : earlier Reservation.expiresAt a b = true := by
  rw [earlier_iff]
  exact h.imp_right fun h => ⟨h.1, le_of_lt h.2⟩

theorem sooner_of_earlier (h : earlier Reservation.expiresAt a b = true) (hne : a.id ≠ b.id) :
    a.Sooner b := by
  rcases earlier_iff.1 h with hlt | ⟨heq, hid⟩
  · exact .inl hlt
  · refine .inr ⟨heq, lt_of_le_of_ne hid fun hvalue => hne ?_⟩
    exact id_eq_of_earlier h (earlier_iff.2 (.inr ⟨heq.symm, hvalue ▸ le_refl _⟩))

theorem sooner_irrefl (a : Reservation) : ¬ a.Sooner a := by
  intro h
  rcases h with hlt | ⟨-, hid⟩
  · exact Timestamp.lt_irrefl _ hlt
  · exact lt_irrefl _ hid

/-! ## All overdue claims -/

theorem Keyed.values_nodup (h : m.Keyed) : m.rows.values.Nodup :=
  Table.nodup_values h

theorem Keyed.mem_overdue_iff (h : m.Keyed) : a ∈ m.rows.values.filter (overdue now) ↔
    m.rows.find? a.id = some a ∧ a.status = .pending ∧ a.expiresAt < now := by
  have hstored : a ∈ m.rows.values ↔ m.rows.find? a.id = some a :=
    Table.mem_values_iff_find?_key h
  simp [List.mem_filter, hstored, overdue]

theorem Backlog.nodup (h : m.Backlog now rs) : rs.Nodup := by
  refine h.sorted.imp fun hsooner => ?_
  rintro rfl
  exact sooner_irrefl _ hsooner

/-- Two overdue claims with the same identity are the same claim. -/
theorem Backlog.eq_of_id (h : m.Backlog now rs) (ha : a ∈ rs) (hb : b ∈ rs) (hid : a.id = b.id) :
    a = b := by
  have hrow := ((h.mem_iff a).1 ha).1
  rw [hid] at hrow
  exact Option.some.inj (hrow.symm.trans ((h.mem_iff b).1 hb).1)

/-- The claims of the backlog are sorted into it, however they are listed. -/
theorem Backlog.sort_eq (h : m.Backlog now rs) {found : List Reservation} (hfound : found.Perm rs) :
    found.mergeSort (earlier Reservation.expiresAt) = rs := by
  -- Both lists are sorted, and claims of which each is earlier than the other are the same.
  refine List.Perm.eq_of_pairwise (fun a b ha hb hab hba => ?_)
    (pairwise_mergeSort_earlier _) (h.sorted.imp earlier_of_sooner)
    ((List.mergeSort_perm ..).trans hfound)
  have ha : a ∈ rs := hfound.subset ((List.mergeSort_perm ..).subset ha)
  exact h.eq_of_id ha hb (id_eq_of_earlier hab hba)

theorem Backlog.perm_filter (h : m.Backlog now rs) (hm : m.Keyed) :
    (m.rows.values.filter (overdue now)).Perm rs := by
  rw [List.perm_ext_iff_of_nodup (hm.values_nodup.filter _) h.nodup]
  exact fun r => hm.mem_overdue_iff.trans (h.mem_iff r).symm

/-- A search finds the first claims of the backlog. -/
theorem Backlog.expired_eq (h : m.Backlog now rs) (hm : m.Keyed) (limit : UInt64) :
    m.expired now limit = takeLimit limit rs :=
  congrArg (takeLimit limit) (h.sort_eq (h.perm_filter hm))

/-- The overdue claims can always be listed. -/
theorem backlog_expired (h : m.Keyed) (now : Timestamp) : m.Backlog now (m.expired now 0) := by
  have hall : m.expired now 0 = (m.rows.values.filter (overdue now)).mergeSort
      (earlier Reservation.expiresAt) := by
    simp [expired, takeLimit]
  rw [hall]
  constructor
  · intro r
    rw [(List.mergeSort_perm ..).mem_iff]
    exact h.mem_overdue_iff
  · have hearlier := pairwise_mergeSort_earlier (m.rows.values.filter (overdue now))
    have hnodup := (List.mergeSort_perm (m.rows.values.filter (overdue now))
      (earlier Reservation.expiresAt)).nodup_iff.2 (h.values_nodup.filter _)
    refine (hearlier.and hnodup).imp_of_mem ?_
    rintro a b ha hb ⟨hab, hne⟩
    refine sooner_of_earlier hab fun hid => hne ?_
    have hrow (r) (hr : r ∈ (m.rows.values.filter (overdue now)).mergeSort
        (earlier Reservation.expiresAt)) : m.rows.find? r.id = some r :=
      (h.mem_overdue_iff.1 ((List.mergeSort_perm ..).mem_iff.1 hr)).1
    have harow := hrow a ha
    rw [hid] at harow
    exact Option.some.inj (harow.symm.trans (hrow b hb))

theorem Backlog.distinct (h : m.Backlog now rs) : rs.Pairwise fun a b => a.id ≠ b.id := by
  refine h.sorted.imp_of_mem fun ha hb hsooner hid => ?_
  cases h.eq_of_id ha hb hid
  exact sooner_irrefl _ hsooner

/-- The oldest overdue claim is no longer one of them once it has ended. -/
theorem Backlog.tail (h : m.Backlog now (a :: rs)) (hid : c.id = a.id)
    (hended : c.status ≠ .pending) :
    Backlog { m with rows := m.rows.insert c.id c } now rs where
  mem_iff := by
    intro r
    have hfirst : r ∈ rs ↔ r ∈ a :: rs ∧ r ≠ a := by
      have hnodup := List.nodup_cons.1 h.nodup
      constructor
      · intro hr
        refine ⟨List.mem_cons_of_mem a hr, ?_⟩
        rintro rfl
        exact hnodup.1 hr
      · rintro ⟨hr, hne⟩
        exact (List.mem_cons.1 hr).resolve_left hne
    rw [hfirst, h.mem_iff, Table.find?_insert]
    by_cases hr : r.id = c.id
    · -- Under this identity there is now a claim that is not pending.
      rw [if_pos hr]
      constructor
      · rintro ⟨hrow, hne⟩
        exact absurd (h.eq_of_id ((h.mem_iff r).2 hrow) (List.mem_cons_self ..)
          (hr.trans hid)) hne
      · rintro ⟨hrow, hpending, -⟩
        cases hrow
        exact absurd hpending hended
    · rw [if_neg hr]
      constructor
      · exact fun hrow => hrow.1
      · refine fun hrow => ⟨hrow, ?_⟩
        rintro rfl
        exact hr hid.symm
  sorted := (List.pairwise_cons.1 h.sorted).2

/-- Two claims and nothing else. -/
theorem backlog_pair (hrows : m.rows.pairs = [(b.id, b), (a.id, a)]) (ha : overdue now a = true)
    (hb : overdue now b = true) (hsooner : a.Sooner b) : m.Backlog now [a, b] where
  mem_iff := by
    intro r
    have hstored : m.rows.find? r.id = some r ↔ r = b ∨ r = a := by
      rw [Table.find?_eq_some_iff, hrows]
      constructor
      · intro h
        simp only [List.mem_cons, Prod.mk.injEq, List.not_mem_nil, or_false] at h
        exact h.imp And.right And.right
      · rintro (rfl | rfl)
        · exact List.mem_cons_self ..
        · exact List.mem_cons_of_mem _ (List.mem_cons_self ..)
    simp only [overdue, Bool.and_eq_true, beq_iff_eq, decide_eq_true_eq] at ha hb
    rw [hstored]
    constructor
    · intro h
      rcases List.mem_pair.1 h with rfl | rfl
      · exact ⟨.inr rfl, ha⟩
      · exact ⟨.inl rfl, hb⟩
    · rintro ⟨rfl | rfl, -⟩
      · exact List.mem_pair.2 (.inr rfl)
      · exact List.mem_pair.2 (.inl rfl)
  sorted := List.pairwise_pair.2 hsooner

end MemoryReservations
end StockLedger
