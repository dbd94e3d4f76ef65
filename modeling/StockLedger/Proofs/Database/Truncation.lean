import Mathlib.Tactic.Common
import StockLedger.Proofs.Database.Agreement
import StockLedger.Proofs.Database.Claims
import StockLedger.Proofs.Settings.BatchLimit

/-!
# Limits in a database and in memory

* `Mirrors.lowStock_held`, `ClaimsMirrored.expired_held` : what the two searches of the ledger
  answer, with any limit;
* `limits_agree_below_signBit` : they keep the same things as in memory exactly if the limit is
  below 2^63.
-/

namespace StockLedger

open Database

variable {keeps : Int → Bool} {now instant : Timestamp} {rows after : List Row} {limit : UInt64}

theorem Mirrors.findLowStock_refused {l : MemoryLedger}
    (h : Mirrors (Server.ledger keeps) rows l) (threshold : Int) (hlimit : ¬ limit.toNat < signBit) :
    (DatabaseLedger.dialogue (.findLowStock threshold limit)).Always (Server.ledger keeps) now
      (fun r _ => r = .error (negativeLimit.fault "find_low_stock")) rows :=
  always_fetchRead_refused h.rows fun xs _ =>
    ⟨xs.map StockItem.row, by rw [execute_lowStock, if_neg hlimit], rfl⟩

theorem Mirrors.lowStock_held {l : MemoryLedger} (h : Mirrors (Server.ledger keeps) rows l)
    (hyoung : l.Young) {threshold : Int} {r : Answer (List StockItem)}
    (hheld : (DatabaseLedger.dialogue (.findLowStock threshold limit)).Held (Server.ledger keeps)
      now rows r after) :
    r = if limit.toNat < signBit then .ok (l.lowStock threshold limit)
      else .error (negativeLimit.fault "find_low_stock") := by
  split
  · next hlimit =>
    have hagree := ((h.findLowStock hyoung threshold hlimit).of_held hheld).1
    cases r with
    | ok found => exact congrArg Except.ok hagree
    | error f => exact hagree.elim
  · next hlimit => exact (h.findLowStock_refused threshold hlimit).of_held hheld

theorem ClaimsMirrored.expired_held {m : MemoryReservations}
    (h : ClaimsMirrored (Server.claims keeps) rows m)
    (hinstant : (Server.claims keeps).Holds instant) {r : Answer (List Reservation)}
    (hheld : (DatabaseReservations.dialogue (.findExpired instant limit)).Held
      (Server.claims keeps) now rows r after) :
    r = if limit.toNat < signBit then .ok (m.expired instant limit)
      else .error (negativeLimit.fault "find_expired_reservations") := by
  split
  · next hlimit => exact (h.findExpired hinstant hlimit).of_held hheld
  · next hlimit => exact (h.findExpired_refused hinstant hlimit).of_held hheld

/--
A limit, and settings may ask for any, is sent as null or as a number that is not negative exactly
if it is below 2^63. Then each search gives the first of all the rows that it finds without a limit,
as many as are kept in memory; and what is read from a database that holds the same things as a
memory is what is found there. Any other limit makes both searches fail, although fewer than 2^63
rows would all be kept in memory.
-/
theorem limits_agree_below_signBit (limit : UInt64) :
    (∃ env settings, Settings.ofLookup env = .ok settings ∧ settings.sweep.batchLimit = limit) ∧
    ((limitValue limit).Admissible ↔ limit.toNat < signBit) ∧
    (∀ (S : Server) (now : Timestamp) (rows : List Row) (threshold : Int) (found : List Row)
        (n : Nat), rows.length < signBit →
      (S.execute now rows ⟨DatabaseLedger.selectLowStock, [.int8 threshold, .null]⟩).1 =
        .ok ⟨found, n⟩ →
      (S.execute now rows
          ⟨DatabaseLedger.selectLowStock, [.int8 threshold, limitValue limit]⟩).1 =
        (if limit.toNat < signBit then
          .ok ⟨takeLimit limit found, (takeLimit limit found).length⟩
        else .error negativeLimit) ∧
      (¬ limit.toNat < signBit → takeLimit limit found = found)) ∧
    (∀ (S : Server) (now instant : Timestamp) (rows : List Row) (found : List Row) (n : Nat),
        rows.length < signBit →
      (S.execute now rows
        ⟨DatabaseReservations.selectExpired, overdueParams instant .null⟩).1 =
        .ok ⟨found, n⟩ →
      (S.execute now rows
          ⟨DatabaseReservations.selectExpired, overdueParams instant (limitValue limit)⟩).1 =
        (if limit.toNat < signBit then
          .ok ⟨takeLimit limit found, (takeLimit limit found).length⟩
        else .error negativeLimit) ∧
      (¬ limit.toNat < signBit → takeLimit limit found = found)) ∧
    (∀ (keeps : Int → Bool) (now : Timestamp) (l : MemoryLedger) (rows : List Row)
        (threshold : Int), Mirrors (Server.ledger keeps) rows l → l.Young →
      (∃ r after, (DatabaseLedger.dialogue (.findLowStock threshold limit)).Held
        (Server.ledger keeps) now rows r after) ∧
      ∀ r after, (DatabaseLedger.dialogue (.findLowStock threshold limit)).Held
          (Server.ledger keeps) now rows r after →
        r = if limit.toNat < signBit then .ok (l.lowStock threshold limit)
          else .error (negativeLimit.fault "find_low_stock")) ∧
    ∀ (keeps : Int → Bool) (now instant : Timestamp) (m : MemoryReservations) (rows : List Row),
        ClaimsMirrored (Server.claims keeps) rows m → (Server.claims keeps).Holds instant →
      (∃ r after, (DatabaseReservations.dialogue (.findExpired instant limit)).Held
        (Server.claims keeps) now rows r after) ∧
      ∀ r after, (DatabaseReservations.dialogue (.findExpired instant limit)).Held
          (Server.claims keeps) now rows r after →
        r = if limit.toNat < signBit then .ok (m.expired instant limit)
          else .error (negativeLimit.fault "find_expired_reservations") := by
  have hkept {found rows : List Row} (hrows : rows.length < signBit)
      (hfound : found.length ≤ rows.length) (hlimit : ¬ limit.toNat < signBit) :
      takeLimit limit found = found :=
    takeLimit_of_length_le (by omega)
  refine ⟨⟨_, Settings.exists_batchLimit limit⟩, admissible_limitValue_iff, ?_, ?_, ?_, ?_⟩
  · intro S now rows threshold found n hrows hall
    have hlength := length_found [.int8 threshold] (fun _ => rfl) hall
    exact ⟨by rw [execute_lowStock_limited hall limit], hkept hrows hlength⟩
  · intro S now instant rows found n hrows hall
    have hlength := length_found
      [.text Reservation.Status.pending.word, .ofInstant instant] (fun _ => rfl) hall
    exact ⟨by rw [execute_expired_limited hall limit], hkept hrows hlength⟩
  · intro keeps now l rows threshold hmirrors hyoung
    exact ⟨Dialogue.exists_held _ now _ rows, fun r after => hmirrors.lowStock_held hyoung⟩
  · intro keeps now instant m rows hmirrored hinstant
    exact ⟨Dialogue.exists_held _ now _ rows, fun r after => hmirrored.expired_held hinstant⟩

namespace DatabaseReservations

/-- A pending claim that expired at the start of 1970. -/
def neglected : Reservation :=
  { Reservation.four 1 with expiresAt := .epoch }

/-- The claim in memory. -/
def onlyNeglected : MemoryReservations where
  rows := (∅ : Table ReservationId Reservation).insert neglected.id neglected
  byOrder := (∅ : Table OrderId ReservationId).insert neglected.orderId neglected.id

open DatabaseLedger (timestamptz later)

theorem claimsMirrored_neglected :
    ClaimsMirrored (Server.claims timestamptz) [neglected.row] onlyNeglected where
  keyed := by
    intro id c hc
    rcases Table.of_find?_insert hc with ⟨rfl, rfl⟩ | ⟨-, hold⟩
    · rfl
    · cases hold
  rows := .refl _
  legible := by
    intro c hc
    obtain rfl : c = neglected := List.mem_singleton.1 hc
    exact ⟨by decide, by decide, by decide⟩

/-- With a limit of 2^63 a claim is found in memory, and the database fails. -/
theorem limits_agree_below_signBit_neglected :
    (∃ env settings, Settings.ofLookup env = .ok settings ∧
      settings.sweep.batchLimit = 9223372036854775808) ∧
    onlyNeglected.expired later 9223372036854775808 = [neglected] ∧
    (∃ r after, (dialogue (.findExpired later 9223372036854775808)).Held
      (Server.claims timestamptz) later [neglected.row] r after) ∧
    ∀ r after, (dialogue (.findExpired later 9223372036854775808)).Held
        (Server.claims timestamptz) later [neglected.row] r after →
      r = .error (negativeLimit.fault "find_expired_reservations") := by
  have hfound : onlyNeglected.expired later 9223372036854775808 = [neglected] := by
    rw [MemoryReservations.expired]
    exact congrArg (takeLimit _) (List.mergeSort_singleton neglected)
  obtain ⟨hset, -, -, -, -, hexpired⟩ := limits_agree_below_signBit 9223372036854775808
  obtain ⟨hanswered, hanswers⟩ := hexpired timestamptz later later onlyNeglected
    [neglected.row] claimsMirrored_neglected (by decide)
  refine ⟨hset, hfound, hanswered, fun r after hheld => ?_⟩
  rw [hanswers r after hheld, if_neg (by decide)]

end DatabaseReservations

end StockLedger
