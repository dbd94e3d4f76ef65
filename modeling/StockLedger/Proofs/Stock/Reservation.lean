import Mathlib.Tactic.Common
import StockLedger.Proofs.Stock.Item
import StockLedger.Service.Claim

/-!
# What becomes of a claim

* `Reservation.open?_ok` : a new claim is pending, and claims what was asked for;
* `Reservation.ensureConfirmable_of_active`, `ensureExpirable_of_expired` and others : what can be
  done to a pending claim, on either side of its expiry;
* `Reservation.Moved` : a claim that was pending, and the same claim afterwards;
* `Settlement.transition_ok`, `Reservation.extend?_ok` : what changes, and what does not;
* `Reservation.SameClaim` : what of a claim never changes, with one lemma for each change.
-/

namespace StockLedger

namespace Reservation

theorem open?_ok {id : ReservationId} {itemId : ItemId} {orderId : OrderId} {quantity : Int}
    {ttl : Span} {now : Timestamp} {r : Reservation}
    (h : open? id itemId orderId quantity ttl now = some (.ok r)) :
    r.status = .pending ∧ r.itemId = itemId ∧ r.quantity = quantity := by
  unfold open? at h
  split at h
  · split at h
    · rcases Option.map_eq_some_iff.1 h with ⟨expiresAt, -, hr⟩
      cases hr
      exact ⟨rfl, rfl, rfl⟩
    · cases h
  · cases h

theorem open?_names {id : ReservationId} {itemId : ItemId} {orderId : OrderId} {quantity : Int}
    {ttl : Span} {now : Timestamp} {r : Reservation}
    (h : open? id itemId orderId quantity ttl now = some (.ok r)) :
    r.id = id ∧ r.orderId = orderId := by
  unfold open? at h
  split at h
  · split at h
    · rcases Option.map_eq_some_iff.1 h with ⟨expiresAt, -, hr⟩
      cases hr
      exact ⟨rfl, rfl⟩
    · cases h
  · cases h

theorem isExpired_iff (r : Reservation) {now : Timestamp} :
    r.isExpired now = true ↔ r.expiresAt < now :=
  decide_eq_true_iff

section

variable {r : Reservation} {now : Timestamp}

/-- Until its expiry a pending claim can be confirmed. -/
theorem ensureConfirmable_of_active (hpending : r.status = .pending) (htime : now ≤ r.expiresAt) :
    r.ensureConfirmable now = .ok () := by
  have hlive : ¬ r.isExpired now = true := fun h => htime (r.isExpired_iff.1 h)
  rw [ensureConfirmable, if_neg (not_not.2 hpending), if_neg hlive]

theorem ensureConfirmable_of_expired (hpending : r.status = .pending)
    (hexpired : r.expiresAt < now) :
    r.ensureConfirmable now = .error (.reservationExpired r.expiryDetail) := by
  rw [ensureConfirmable, if_neg (not_not.2 hpending), if_pos (r.isExpired_iff.2 hexpired)]

/-- After its expiry a pending claim can be marked as expired. -/
theorem ensureExpirable_of_expired (hpending : r.status = .pending) (hexpired : r.expiresAt < now) :
    r.ensureExpirable now = .ok () := by
  rw [ensureExpirable, if_neg (not_not.2 hpending), if_pos (r.isExpired_iff.2 hexpired)]

theorem ensureExpirable_of_active (hpending : r.status = .pending) (htime : now ≤ r.expiresAt) :
    r.ensureExpirable now = .error (.reservationNotExpired r.expiryDetail) := by
  have hlive : ¬ r.isExpired now = true := fun h => htime (r.isExpired_iff.1 h)
  rw [ensureExpirable, if_neg (not_not.2 hpending), if_neg hlive]

/-- At any time a pending claim can be released. -/
theorem ensureReleasable_of_pending (hpending : r.status = .pending) :
    r.ensureReleasable = .ok () :=
  if_pos (beq_iff_eq.2 hpending)

end

/-- The claim was pending, and is still the same claim. -/
structure Moved (r r' : Reservation) : Prop where
  pending : r.status = .pending
  id : r'.id = r.id
  itemId : r'.itemId = r.itemId
  quantity : r'.quantity = r.quantity

theorem pending_of_ensureConfirmable {r : Reservation} {now : Timestamp}
    (h : r.ensureConfirmable now = .ok ()) : r.status = .pending := by
  unfold ensureConfirmable at h
  split at h
  · cases h
  · next hstatus => exact not_not.1 hstatus

theorem extend?_ok {r r' : Reservation} {by_ : Span} {now : Timestamp}
    (h : r.extend? by_ now = some (.ok r')) : Moved r r' ∧ r'.status = .pending := by
  unfold extend? at h
  split at h
  · split at h
    · next hok =>
      have hpending := pending_of_ensureConfirmable hok
      rcases Option.map_eq_some_iff.1 h with ⟨expiresAt, -, hr⟩
      cases hr
      exact ⟨⟨hpending, rfl, rfl, rfl⟩, hpending⟩
    · cases h
  · cases h

end Reservation

theorem Answer.of_map_ok {α β : Type} {f : α → β} {x : Answer α} {b : β}
    (h : x.map f = .ok b) : ∃ a, x = .ok a ∧ f a = b := by
  cases x with
  | error e => cases h
  | ok a => exact ⟨a, rfl, Except.ok.inj h⟩

/-- How a claim stands once it has ended. -/
def Settlement.status : Settlement → Reservation.Status
  | confirm => .confirmed
  | release => .released
  | expire => .expired

/-- All that must hold of a claim when it ends. -/
def Settlement.ensure (k : Settlement) (r : Reservation) (now : Timestamp) : Answer Unit :=
  match k with
  | confirm => r.ensureConfirmable now
  | release => r.ensureReleasable
  | expire => r.ensureExpirable now

theorem Settlement.transition_eq (k : Settlement) (r : Reservation) (now : Timestamp) :
    k.transition r now = (k.ensure r now).map fun _ => r.moveTo k.status now := by
  cases k <;> rfl

/-- Nothing else stands in the way of a settlement, at first and when the claim is changed. -/
theorem Settlement.of_ensure {k : Settlement} {r : Reservation} {now : Timestamp}
    (h : k.ensure r now = .ok ()) :
    k.guard r now = .ok () ∧ k.transition r now = .ok (r.moveTo k.status now) := by
  refine ⟨?_, ?_⟩
  · cases k with
    | confirm | release => exact h
    | expire => rfl
  · rw [transition_eq, h]
    rfl

theorem Settlement.pending_of_ensure {k : Settlement} {r : Reservation} {now : Timestamp}
    (h : k.ensure r now = .ok ()) : r.status = .pending := by
  cases k with
  | confirm => exact Reservation.pending_of_ensureConfirmable h
  | release =>
    have h : r.ensureReleasable = .ok () := h
    unfold Reservation.ensureReleasable at h
    split at h
    · next hpending => exact eq_of_beq hpending
    · cases h
  | expire =>
    have h : r.ensureExpirable now = .ok () := h
    unfold Reservation.ensureExpirable at h
    split at h
    · cases h
    · next hstatus => exact not_not.1 hstatus

/-- A settlement that is not refused takes a pending claim out of that status. -/
theorem Settlement.transition_ok {k : Settlement} {r r' : Reservation} {now : Timestamp}
    (h : k.transition r now = .ok r') : r.Moved r' ∧ r'.status ≠ .pending := by
  rw [transition_eq] at h
  rcases Answer.of_map_ok h with ⟨_, hok, rfl⟩
  refine ⟨⟨pending_of_ensure hok, rfl, rfl, rfl⟩, ?_⟩
  cases k <;> nofun

namespace Reservation

/-- Two states of one claim: what it claims, for which order and since when. -/
structure SameClaim (r r' : Reservation) : Prop where
  id : r'.id = r.id
  itemId : r'.itemId = r.itemId
  orderId : r'.orderId = r.orderId
  quantity : r'.quantity = r.quantity
  createdAt : r'.createdAt = r.createdAt

namespace SameClaim

theorem refl (r : Reservation) : r.SameClaim r :=
  ⟨rfl, rfl, rfl, rfl, rfl⟩

theorem symm {r r' : Reservation} (h : r.SameClaim r') : r'.SameClaim r :=
  ⟨h.id.symm, h.itemId.symm, h.orderId.symm, h.quantity.symm, h.createdAt.symm⟩

theorem trans {r r' r'' : Reservation} (h : r.SameClaim r') (h' : r'.SameClaim r'') :
    r.SameClaim r'' where
  id := h'.id.trans h.id
  itemId := h'.itemId.trans h.itemId
  orderId := h'.orderId.trans h.orderId
  quantity := h'.quantity.trans h.quantity
  createdAt := h'.createdAt.trans h.createdAt

end SameClaim

theorem sameClaim_of_extend? {r r' : Reservation} {by_ : Span} {now : Timestamp}
    (h : r.extend? by_ now = some (.ok r')) : r.SameClaim r' := by
  unfold extend? at h
  split at h
  · split at h
    · rcases Option.map_eq_some_iff.1 h with ⟨expiresAt, -, hr⟩
      cases hr
      exact ⟨rfl, rfl, rfl, rfl, rfl⟩
    · cases h
  · cases h

end Reservation

/-- A settlement gives the claim another status, now, and changes nothing else. -/
theorem Settlement.eq_moveTo_of_transition {k : Settlement} {r r' : Reservation} {now : Timestamp}
    (h : k.transition r now = .ok r') : r' = r.moveTo k.status now := by
  rw [transition_eq] at h
  rcases Answer.of_map_ok h with ⟨_, -, rfl⟩
  rfl

theorem Reservation.sameClaim_moveTo (r : Reservation) (status : Status) (now : Timestamp) :
    r.SameClaim (r.moveTo status now) :=
  ⟨rfl, rfl, rfl, rfl, rfl⟩

/-- A settlement gives the claimed units back or takes them out. -/
theorem Settlement.claims_change (k : Settlement) (units : Int) :
    k.change.claims units = -units := by
  cases k <;> rfl

end StockLedger
