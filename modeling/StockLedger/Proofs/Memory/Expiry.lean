import Mathlib.Tactic.Common
import StockLedger.Proofs.Memory.Backlog
import StockLedger.Proofs.Stock.Reservation

/-!
# The search for overdue claims

The store compares an expiry with the clock to find overdue claims, and a claim compares it again
when it is confirmed, extended or marked as expired. Both draw the line at the same instant.

* `Reservation.refuses_of_expired`, `Reservation.serves_of_not_expired` : on either side of the line,
  what a claim says to the clock;
* `MemoryReservations.Soonest` : the first overdue claims, in their order and up to a limit;
* `MemoryReservations.soonest_expired` : these are found, from any listing of the store;
* `expired_soonest_and_agreed` : the search and the claims agree, then and at any later time.
-/

namespace StockLedger

/-! ## What a claim says to the clock -/

namespace Reservation

variable {r : Reservation} {now : Timestamp}

/-- A pending claim that has expired can be marked as such, and cannot be confirmed or extended. -/
theorem refuses_of_expired (hpending : r.status = .pending) (hexpired : r.expiresAt < now) :
    r.expire now = .ok (r.moveTo .expired now) ∧
      r.confirm now = .error (.reservationExpired r.expiryDetail) ∧
      ∀ by_ : Span, by_.Positive →
        r.extend? by_ now = some (.error (.reservationExpired r.expiryDetail)) := by
  have hconfirmable := ensureConfirmable_of_expired hpending hexpired
  refine ⟨?_, ?_, ?_⟩
  · rw [expire, ensureExpirable_of_expired hpending hexpired]
    rfl
  · rw [confirm, hconfirmable]
    rfl
  · intro by_ hpositive
    rw [extend?, if_pos hpositive, hconfirmable]

/-- A pending claim that has not expired can be confirmed, and cannot be marked as expired. -/
theorem serves_of_not_expired (hpending : r.status = .pending) (htimely : ¬ r.expiresAt < now) :
    r.confirm now = .ok (r.moveTo .confirmed now) ∧
      r.expire now = .error (.reservationNotExpired r.expiryDetail) := by
  constructor
  · rw [confirm, ensureConfirmable_of_active hpending htimely]
    rfl
  · rw [expire, ensureExpirable_of_active hpending htimely]
    rfl

end Reservation

/-! ## What is found -/

namespace MemoryReservations

variable {m m' : MemoryReservations} {now : Timestamp} {limit : UInt64}
  {rs found : List Reservation}

/-- A claim that is stored, still pending, and expired before an instant. -/
structure Overdue (m : MemoryReservations) (now : Timestamp) (r : Reservation) : Prop where
  stored : m.rows.find? r.id = some r
  pending : r.status = .pending
  expired : r.expiresAt < now

/-- How many claims are overdue. -/
def overdueCount (m : MemoryReservations) (now : Timestamp) : Nat :=
  m.rows.values.countP fun r => r.status = .pending ∧ r.expiresAt < now

/-- The first overdue claims, as many as a limit admits. A limit of zero admits all. -/
structure Soonest (m : MemoryReservations) (now : Timestamp) (limit : UInt64)
    (found : List Reservation) : Prop where
  overdue : ∀ r ∈ found, m.Overdue now r
  distinct : (found.map Reservation.id).Nodup
  ascending : found.Pairwise Reservation.Sooner
  length : found.length =
    if limit = 0 then m.overdueCount now else min limit.toNat (m.overdueCount now)
  later : ∀ r, m.Overdue now r → r ∉ found → ∀ a ∈ found, a.Sooner r

theorem Backlog.overdue_iff (h : m.Backlog now rs) (r : Reservation) :
    r ∈ rs ↔ m.Overdue now r := by
  rw [h.mem_iff]
  constructor
  · rintro ⟨hstored, hpending, hexpired⟩
    exact ⟨hstored, hpending, hexpired⟩
  · rintro ⟨hstored, hpending, hexpired⟩
    exact ⟨hstored, hpending, hexpired⟩

theorem Backlog.length_eq (h : m.Backlog now rs) (hm : m.Keyed) :
    rs.length = m.overdueCount now := by
  have hfilter : (m.rows.values.filter (MemoryReservations.overdue now)).length =
      m.overdueCount now := by
    rw [← List.countP_eq_length_filter]
    refine List.countP_congr fun r _ => ?_
    simp [MemoryReservations.overdue]
  exact (h.perm_filter hm).length_eq.symm.trans hfilter

/-- The backlog lists what is stored, not how it is stored. -/
theorem Backlog.of_rows (h : m.Backlog now rs)
    (hrows : ∀ id, m'.rows.find? id = m.rows.find? id) : m'.Backlog now rs where
  mem_iff := by
    intro r
    rw [hrows]
    exact h.mem_iff r
  sorted := h.sorted

theorem Backlog.soonest (h : m.Backlog now rs) (hm : m.Keyed) (limit : UInt64) :
    m.Soonest now limit (takeLimit limit rs) where
  overdue := by
    intro r hr
    exact (h.overdue_iff r).1 ((takeLimit_front limit rs).subset hr)
  distinct := by
    have hdistinct : (takeLimit limit rs).Pairwise fun a b => a.id ≠ b.id :=
      h.distinct.sublist (takeLimit_front limit rs).sublist
    exact List.pairwise_map.2 hdistinct
  ascending := h.sorted.sublist (takeLimit_front limit rs).sublist
  length := by
    rw [length_takeLimit, h.length_eq hm]
  later := by
    intro r hr hout
    exact after_takeLimit h.sorted ((h.overdue_iff r).2 hr) hout

/-- A search finds the first overdue claims. -/
theorem soonest_expired (hm : m.Keyed) (now : Timestamp) (limit : UInt64) :
    m.Soonest now limit (m.expired now limit) := by
  have hbacklog := backlog_expired hm now
  rw [hbacklog.expired_eq hm limit]
  exact hbacklog.soonest hm limit

/-- The same claims are found in the same order, however the store lists them. -/
theorem expired_eq_of_rows (hm : m.Keyed) (hm' : m'.Keyed)
    (hrows : ∀ id, m'.rows.find? id = m.rows.find? id) (now : Timestamp) (limit : UInt64) :
    m'.expired now limit = m.expired now limit := by
  have hbacklog := backlog_expired hm now
  calc
    m'.expired now limit = takeLimit limit (m.expired now 0) :=
      (hbacklog.of_rows hrows).expired_eq hm' limit
    _ = m.expired now limit := (hbacklog.expired_eq hm limit).symm

theorem Keyed.of_rows (hm : m.Keyed) (hrows : ∀ id, m'.rows.find? id = m.rows.find? id) :
    m'.Keyed := by
  intro id r hr
  rw [hrows] at hr
  exact hm id r hr

end MemoryReservations

/--
The search finds exactly the first overdue claims, in whatever order the store lists its claims.
What it finds can be marked as expired from then on, and can no longer be confirmed or extended. A
pending claim that is not overdue can be confirmed, and cannot be marked as expired.
-/
theorem expired_soonest_and_agreed (m : MemoryReservations) (hm : m.Keyed) (now : Timestamp)
    (limit : UInt64) :
    ∃ found, m.reply (.findExpired now limit) = .ok found ∧ m.Soonest now limit found ∧
      (∀ m' : MemoryReservations, (∀ id, m'.rows.find? id = m.rows.find? id) →
        m'.reply (.findExpired now limit) = .ok found) ∧
      (∀ later, now ≤ later → ∀ r ∈ found,
        r.expire later = .ok (r.moveTo .expired later) ∧
        r.confirm later = .error (.reservationExpired r.expiryDetail) ∧
        ∀ by_ : Span, by_.Positive →
          r.extend? by_ later = some (.error (.reservationExpired r.expiryDetail))) ∧
      (∀ r : Reservation, r.status = .pending → ¬ r.expiresAt < now →
        r.confirm now = .ok (r.moveTo .confirmed now) ∧
        r.expire now = .error (.reservationNotExpired r.expiryDetail)) := by
  have hsoonest := MemoryReservations.soonest_expired hm now limit
  refine ⟨m.expired now limit, rfl, hsoonest, ?_, ?_, ?_⟩
  · intro m' hrows
    have hsame : m'.expired now limit = m.expired now limit :=
      MemoryReservations.expired_eq_of_rows hm (hm.of_rows hrows) hrows now limit
    exact congrArg Except.ok hsame
  · intro later hlater r hr
    have hoverdue : m.Overdue now r := hsoonest.overdue r hr
    -- The clock of a claim has passed the expiry too, because it is not behind that of the search.
    exact Reservation.refuses_of_expired hoverdue.pending
      (Timestamp.lt_of_lt_of_le hoverdue.expired hlater)
  · intro r hpending htimely
    exact Reservation.serves_of_not_expired hpending htimely

namespace Expiring

/-- A second after the expiry of the claims below. -/
def clock : Timestamp :=
  (Timestamp.epoch.add? (.ofSeconds 901)).getD .epoch

/-- Two claims that expired at the same instant. -/
def store : MemoryReservations :=
  (MemoryReservations.empty.apply (.save (.four 0))).apply (.save (.four 1))

/-- The same claims, listed the other way round. -/
def turned : MemoryReservations :=
  (MemoryReservations.empty.apply (.save (.four 1))).apply (.save (.four 0))

/-- A claim that expires right now. -/
def lastMoment : Reservation :=
  { Reservation.four 2 with expiresAt := clock }

theorem keyed_store : store.Keyed :=
  (MemoryReservations.keyed_empty.outcome (MemoryReservations.outcome _ (.save (.four 0)))).outcome
    (MemoryReservations.outcome _ (.save (.four 1)))

theorem backlog_store : store.Backlog clock [.four 0, .four 1] :=
  MemoryReservations.backlog_pair rfl rfl rfl (.inr ⟨rfl, by decide⟩)

theorem rows_turned (id : ReservationId) : turned.rows.find? id = store.rows.find? id := by
  have hturned : turned.rows = ((∅ : Table ReservationId Reservation).insert
      (Reservation.four 1).id (.four 1)).insert (Reservation.four 0).id (.four 0) := rfl
  have hstore : store.rows = ((∅ : Table ReservationId Reservation).insert
      (Reservation.four 0).id (.four 0)).insert (Reservation.four 1).id (.four 1) := rfl
  have hne : (Reservation.four 0).id ≠ (Reservation.four 1).id := by decide
  rw [hturned, hstore]
  simp only [Table.find?_insert]
  by_cases hid : id = (Reservation.four 0).id
  · rw [if_pos hid, if_neg (hid ▸ hne), if_pos hid]
  · rw [if_neg hid, if_neg hid]

/-- Of two claims that expired at once, a limit of one finds the same claim either way. -/
theorem expired_soonest_and_agreed_tied :
    store.Keyed ∧ store.reply (.findExpired clock 1) = .ok [.four 0] ∧
    turned.reply (.findExpired clock 1) = .ok [.four 0] ∧ store.overdueCount clock = 2 ∧
    (Reservation.four 0).Sooner (.four 1) ∧
    (Reservation.four 0).expire clock = .ok ((Reservation.four 0).moveTo .expired clock) ∧
    (Reservation.four 0).confirm clock =
      .error (.reservationExpired (Reservation.four 0).expiryDetail) ∧
    (Reservation.four 0).extend? (.ofSeconds 60) clock =
      some (.error (.reservationExpired (Reservation.four 0).expiryDetail)) ∧
    lastMoment.confirm clock = .ok (lastMoment.moveTo .confirmed clock) ∧
    lastMoment.expire clock = .error (.reservationNotExpired lastMoment.expiryDetail) := by
  have hcount : store.overdueCount clock = 2 := (backlog_store.length_eq keyed_store).symm
  obtain ⟨found, hreply, hsoonest, hturned, hexpired, htimely⟩ :=
    expired_soonest_and_agreed store keyed_store clock 1
  obtain rfl : found = [.four 0] := by
    have hfound : store.expired clock 1 = [.four 0] := backlog_store.expired_eq keyed_store 1
    exact (Except.ok.inj hreply).symm.trans hfound
  have hoverdue : store.Overdue clock (.four 1) := ⟨rfl, rfl, by decide⟩
  have hsooner : (Reservation.four 0).Sooner (.four 1) :=
    hsoonest.later _ hoverdue (by decide) _ (List.mem_singleton_self _)
  obtain ⟨hexpire, hconfirm, hextend⟩ :=
    hexpired clock (Timestamp.lt_irrefl clock) _ (List.mem_singleton_self _)
  obtain ⟨hserved, hrefused⟩ := htimely lastMoment rfl (Timestamp.lt_irrefl clock)
  exact ⟨keyed_store, hreply, hturned turned rows_turned, hcount, hsooner, hexpire, hconfirm,
    hextend (.ofSeconds 60) (by decide), hserved, hrefused⟩

end Expiring
end StockLedger
