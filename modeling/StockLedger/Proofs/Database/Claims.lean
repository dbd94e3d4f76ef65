import Mathlib.Tactic.Common
import StockLedger.Proofs.Database.Dialogues
import StockLedger.Proofs.Database.Items
import StockLedger.Proofs.Database.Limits
import StockLedger.Proofs.Memory.Backlog
import StockLedger.Proofs.Wire.Reservation

/-!
# Claims as rows

* `Reservation.row`, `Reservation.Legible` : the row of a claim, and when it can be read back;
* `Database.readReservation_row` : they are;
* `Database.value_overdue`, `keysAtMost_claim` : the search for overdue claims picks and orders them
  as they are in memory;
* `ClaimsMirrored` : the rows of a database are the claims of a store in memory;
* `ClaimsMirrored.findExpired`, `ClaimsMirrored.findExpired_refused` : the search with a limit.
-/

namespace StockLedger

open Database

/-! ## Rows -/

namespace Reservation

/-- The row of a claim. -/
def row (c : Reservation) : Row :=
  DatabaseReservations.columns.zip (reservationValues c)

/-- A server can hold the instants of the claim. -/
structure Legible (S : Server) (c : Reservation) : Prop where
  expiresAt : S.Holds c.expiresAt
  createdAt : S.Holds c.createdAt
  updatedAt : S.Holds c.updatedAt

end Reservation

namespace Database

variable {S : Server} {a b c : Reservation} {now instant : Timestamp}

theorem project_claim (c : Reservation) : project DatabaseReservations.columns c.row = .ok c.row :=
  rfl

/-- A claim that a server holds is read back from its row. -/
theorem readReservation_row (h : c.Legible S) : readReservation c.row = .ok c := by
  have hrow : reservationRow c.row = .ok (.ofReservation c) := by
    have hexpires : c.row.instant "expires_at" = .ok c.expiresAt := read_instant h.expiresAt rfl
    have hcreated : c.row.instant "created_at" = .ok c.createdAt := read_instant h.createdAt rfl
    have hupdated : c.row.instant "updated_at" = .ok c.updatedAt := read_instant h.updatedAt rfl
    rw [reservationRow, hexpires, hcreated, hupdated]
    rfl
  rw [readReservation, hrow]
  exact ReservationRow.toReservation_ofReservation c

/-! ## Conditions -/

theorem Comparison.test_eq_text (s t : String) :
    Comparison.eq.test (.text s) (.text t) = .ok (some (decide (s = t))) := by
  have heq : (compare s t).isEq = decide (s = t) := by
    rw [Bool.eq_iff_iff, Ordering.isEq_iff_eq_eq, decide_eq_true_iff]
    exact Std.LawfulEqOrd.compare_eq_iff_eq
  simp [Comparison.test, Value.order?, Comparison.holds, heq]

theorem status_word_eq_iff (s : Reservation.Status) :
    s.word = Reservation.Status.pending.word ↔ s = .pending := by
  cases s <;> decide

/-- What the search for overdue claims asks of a row. -/
theorem value_overdue (hc : S.Holds c.expiresAt) (hinstant : S.Holds instant)
    (limit : Value) :
    (Condition.and (.is "status" 1) (.compare .lt (.column "expires_at") (.param 2))).value
        ⟨now, overdueParams instant limit⟩ c.row =
      .ok (some (MemoryReservations.overdue instant c)) := by
  have hstatus : (Condition.is "status" 1).value ⟨now, overdueParams instant limit⟩ c.row =
      .ok (some (decide (c.status = .pending))) := by
    rw [Condition.value_is (v := .text c.status.word) (w := .text Reservation.Status.pending.word)
      rfl rfl, Comparison.test_eq_text, decide_eq_decide.2 (status_word_eq_iff c.status)]
  have hexpiry : (Condition.compare .lt (.column "expires_at") (.param 2)).value
      ⟨now, overdueParams instant limit⟩ c.row =
        .ok (some (decide (c.expiresAt < instant))) := by
    have hlt : (compare (microsOf c.expiresAt) (microsOf instant)).isLT =
        decide (c.expiresAt < instant) := by
      rw [Bool.eq_iff_iff, Ordering.isLT_iff_eq_lt, compare_lt_iff_lt, hc.microsOf_lt_iff hinstant,
        decide_eq_true_iff]
    rw [← hlt]
    rfl
  have hpending : (c.status == .pending) = decide (c.status = .pending) := rfl
  rw [Condition.value, hstatus, hexpiry, MemoryReservations.overdue, hpending, ← both_some]
  rfl

/-! ## Order -/

/-- What overdue claims are ordered by. -/
theorem value_expiry (x : Scope) (c : Reservation) :
    [Term.column "expires_at", .column "id"].mapM (Term.value x c.row) =
      .ok [.ofInstant c.expiresAt, .uuid c.id.uuid] :=
  mapM_of_forall₂ (.cons rfl (.cons rfl .nil))

theorem keysAtMost_claim (ha : S.Holds a.expiresAt) (hb : S.Holds b.expiresAt) :
    keysAtMost [.ofInstant a.expiresAt, .uuid a.id.uuid] [.ofInstant b.expiresAt, .uuid b.id.uuid] =
      MemoryReservations.earlier Reservation.expiresAt a b := by
  have hkeys : keysAtMost [.ofInstant a.expiresAt, .uuid a.id.uuid]
      [.ofInstant b.expiresAt, .uuid b.id.uuid] =
      ((compare (microsOf a.expiresAt) (microsOf b.expiresAt)).isLT ||
        ((compare (microsOf a.expiresAt) (microsOf b.expiresAt)).isEq &&
        ((compare a.id.uuid.value b.id.uuid.value).isLT ||
          ((compare a.id.uuid.value b.id.uuid.value).isEq && true)))) := rfl
  rw [hkeys, Bool.eq_iff_iff, MemoryReservations.earlier_iff]
  simp only [Bool.or_eq_true, Bool.and_eq_true, Ordering.isLT_iff_eq_lt, Ordering.isEq_iff_eq_eq,
    compare_lt_iff_lt, compare_eq_iff_eq, and_true, ha.microsOf_lt_iff hb, ha.microsOf_eq_iff hb,
    Nat.le_iff_lt_or_eq]

/-- Lists are sorted alike by orders that agree on what is in them. -/
theorem mergeSort_congr {α : Type} {le le' : α → α → Bool} {xs : List α}
    (h : ∀ a ∈ xs, ∀ b ∈ xs, le a b = le' a b) : xs.mergeSort le = xs.mergeSort le' := by
  have hid := List.map_mergeSort (f := id) h
  rwa [List.map_id, List.map_id] at hid

/-! ## The search -/

/-- The server that keeps the table of claims; it is open how far its instants reach. -/
def Server.claims (keeps : Int → Bool) : Server where
  table := reservations
  keeps := keeps

/-- All overdue claims, the oldest first. -/
theorem execute_allExpired {keeps : Int → Bool} {xs : List Reservation}
    (hxs : ∀ c ∈ xs, (Server.claims keeps).Holds c.expiresAt)
    (hinstant : (Server.claims keeps).Holds instant) :
    (Server.claims keeps).execute now (xs.map Reservation.row)
        ⟨DatabaseReservations.selectExpired, overdueParams instant .null⟩ =
      (.ok ⟨((xs.filter (MemoryReservations.overdue instant)).mergeSort
            (MemoryReservations.earlier Reservation.expiresAt)).map Reservation.row,
          (((xs.filter (MemoryReservations.overdue instant)).mergeSort
            (MemoryReservations.earlier Reservation.expiresAt)).map Reservation.row).length⟩,
        xs.map Reservation.row) := by
  have hparams : ((overdueParams instant .null).any fun v =>
      !(Server.claims keeps).receives v) = false := by
    simp [Server.receives, Value.ofInstant, hinstant.kept]
  have hheld (c : Reservation) (hc : c ∈ xs.filter (MemoryReservations.overdue instant)) :
      (Server.claims keeps).Holds c.expiresAt :=
    hxs c (List.mem_of_mem_filter hc)
  rw [← mergeSort_congr fun a ha b hb => keysAtMost_claim (hheld a ha) (hheld b hb)]
  exact execute_search rfl hparams rfl (fun c hc => value_overdue (hxs c hc) hinstant .null)
    (fun c => value_expiry _ c) project_claim

end Database

/-! ## Claims in a database and in memory -/

/-- A database holds exactly the claims of a store in memory. -/
structure ClaimsMirrored (S : Server) (rows : List Row) (m : MemoryReservations) : Prop where
  keyed : m.Keyed
  rows : rows.Perm (m.rows.values.map Reservation.row)
  legible : ∀ c ∈ m.rows.values, c.Legible S

section Search

variable {keeps : Int → Bool} {now instant : Timestamp} {m : MemoryReservations} {rows : List Row}
  (h : ClaimsMirrored (Server.claims keeps) rows m)
  (hinstant : (Server.claims keeps).Holds instant)

include h hinstant

/-- The search, with any limit. -/
theorem ClaimsMirrored.execute_expired {xs : List Reservation} (hxs : xs.Perm m.rows.values)
    (limit : UInt64) :
    (Server.claims keeps).execute now (xs.map Reservation.row)
        ⟨DatabaseReservations.selectExpired, overdueParams instant (limitValue limit)⟩ =
      (if limit.toNat < signBit then
          .ok ⟨(m.expired instant limit).map Reservation.row,
            ((m.expired instant limit).map Reservation.row).length⟩
        else .error negativeLimit,
        xs.map Reservation.row) := by
  have hheld (c : Reservation) (hc : c ∈ xs) : (Server.claims keeps).Holds c.expiresAt :=
    (h.legible c (hxs.subset hc)).expiresAt
  have hbacklog := MemoryReservations.backlog_expired h.keyed instant
  -- identities are distinct, so all arrangements of the rows are sorted into one list
  have hsort : (xs.filter (MemoryReservations.overdue instant)).mergeSort
      (MemoryReservations.earlier Reservation.expiresAt) = m.expired instant 0 :=
    hbacklog.sort_eq ((hxs.filter _).trans (hbacklog.perm_filter h.keyed))
  rw [execute_expired_limited (congrArg Prod.fst (execute_allExpired hheld hinstant)) limit, hsort,
    takeLimit_map, ← hbacklog.expired_eq h.keyed limit]

/-- A search with a limit below 2^63 finds what is found in memory. -/
theorem ClaimsMirrored.findExpired {limit : UInt64} (hlimit : limit.toNat < signBit) :
    (DatabaseReservations.dialogue (.findExpired instant limit)).Always (Server.claims keeps) now
      (fun r _ => r = .ok (m.expired instant limit)) rows := by
  refine always_fetchRead h.rows fun xs hxs =>
    ⟨_, _, _, by rw [h.execute_expired hinstant hxs, if_pos hlimit], rfl, fun c hc => ?_, rfl⟩
  have hfound : c ∈ m.expired instant 0 := by
    rw [(MemoryReservations.backlog_expired h.keyed instant).expired_eq h.keyed] at hc
    obtain ⟨rest, hrest⟩ := exists_takeLimit_append limit (m.expired instant 0)
    exact hrest ▸ List.mem_append_left rest hc
  have hstored := (((MemoryReservations.backlog_expired h.keyed instant).mem_iff c).1 hfound).1
  exact readReservation_row (h.legible c (Table.mem_values_of_find? hstored))

/-- A search with any other limit is refused. -/
theorem ClaimsMirrored.findExpired_refused {limit : UInt64} (hlimit : ¬ limit.toNat < signBit) :
    (DatabaseReservations.dialogue (.findExpired instant limit)).Always (Server.claims keeps) now
      (fun r _ => r = .error (negativeLimit.fault "find_expired_reservations")) rows := by
  refine always_fetchRead_refused h.rows fun xs hxs =>
    ⟨_, by rw [h.execute_expired hinstant hxs, if_neg hlimit], rfl⟩

end Search
end StockLedger
