import StockLedger.Fault.Causes
import StockLedger.Identity.Basic
import StockLedger.Stock.Item
import StockLedger.Time.Written

/-!
# Reservations

A reservation claims units of one stock item for one order until an instant. It starts out pending
and leaves that status once: confirmed, released or expired.

* `Reservation.Status` : the four statuses, with their words;
* `Reservation` : the claim, with `0 < quantity ≤ maxUnits`;
* `Reservation.open?`, `Reservation.restore` : new claims, and claims read back from storage;
* `Reservation.confirm`, `release`, `expire` : the three ways out of pending;
* `Reservation.extend?` : a later expiry.

A claim is expired strictly after its instant. Whatever would need an instant out of range has no
answer at all (`none`).
-/

namespace StockLedger

namespace Reservation

/-! ## Statuses -/

/-- Where a claim stands. -/
inductive Status
  | pending
  | confirmed
  | released
  | expired
deriving DecidableEq, Repr

/-- All statuses, in the order in which they are counted. -/
def Status.all : List Status :=
  [.pending, .confirmed, .released, .expired]

/-- The word for a status. -/
def Status.word : Status → String
  | .pending => "pending"
  | .confirmed => "confirmed"
  | .released => "released"
  | .expired => "expired"

/-- Only a pending claim can still change. -/
def Status.isTerminal (s : Status) : Bool :=
  s != .pending

/-- The status for a word. -/
def Status.ofWord? (word : String) : Answer Status :=
  match Status.all.find? fun s => s.word == word with
  | some s => .ok s
  | none => .error (.corruptRecord ("unknown reservation status '" ++ word ++ "'"))

end Reservation

/-! ## Claims -/

/-- A claim on units of a stock item. -/
structure Reservation where
  id : ReservationId
  itemId : ItemId
  orderId : OrderId
  quantity : Int
  status : Reservation.Status
  expiresAt : Timestamp
  createdAt : Timestamp
  updatedAt : Timestamp
  quantity_range : 0 < quantity ∧ quantity ≤ maxUnits
deriving DecidableEq, Repr

namespace Reservation

/-- How long a claim holds when nobody says otherwise: fifteen minutes. -/
def defaultTtl : Span := .ofSeconds 900

/-- A pending claim that holds for `ttl` from now on. -/
def open? (id : ReservationId) (itemId : ItemId) (orderId : OrderId) (quantity : Int)
    (ttl : Span) (now : Timestamp) : Option (Answer Reservation) :=
  if h : 0 < quantity ∧ quantity ≤ maxUnits then
    if ttl.Positive then
      (now.add? ttl).map fun expiresAt =>
        .ok { id, itemId, orderId, quantity, status := .pending, expiresAt
              createdAt := now, updatedAt := now, quantity_range := h }
    else
      some (.error ((Fault.invalidDuration "reservation ttl must be positive").withDetail
        (Fault.entry "ttl_ms" (Decimal.int ttl.millis))))
  else
    some (.error (.invalidQuantity quantity))

/-- The claim with the given values, refused if its quantity cannot be that of a claim. -/
def restore (id : ReservationId) (itemId : ItemId) (orderId : OrderId) (quantity : Int)
    (status : Status) (expiresAt createdAt updatedAt : Timestamp) : Answer Reservation :=
  if h : 0 < quantity ∧ quantity ≤ maxUnits then
    .ok { id, itemId, orderId, quantity, status, expiresAt, createdAt, updatedAt
          quantity_range := h }
  else
    .error ((Fault.corruptRecord "reservation quantity must be positive").withDetail
      (Fault.entries (Fault.entry "reservation" id.text)
        (Fault.entry "quantity" (Decimal.int quantity))))

/-! ## Questions -/

/-- Has the instant of expiry passed? -/
def isExpired (r : Reservation) (now : Timestamp) : Bool :=
  r.expiresAt < now

/-- Pending and not expired. -/
def isActive (r : Reservation) (now : Timestamp) : Bool :=
  r.status == .pending && !r.isExpired now

/-- Pending; expiry does not forbid an explicit release. -/
def isReleasable (r : Reservation) : Bool :=
  r.status == .pending

/-- The refusal of a claim that is no longer pending. -/
def notPending (r : Reservation) : Fault :=
  (Fault.reservationNotPending r.status.word).withDetail
    (Fault.entries (Fault.entry "reservation" r.id.text) (Fault.entry "status" r.status.word))

/-- The values that a refusal about time is about. -/
def expiryDetail (r : Reservation) : String :=
  Fault.entries (Fault.entry "reservation" r.id.text)
    (Fault.entry "expires_at" r.expiresAt.numericOffset)

/-- Refuses with the reason why the claim cannot be confirmed. -/
def ensureConfirmable (r : Reservation) (now : Timestamp) : Answer Unit :=
  if r.status ≠ .pending then .error r.notPending
  else if r.isExpired now then .error (.reservationExpired r.expiryDetail)
  else .ok ()

/-- Refuses with the reason why the claim cannot be released. -/
def ensureReleasable (r : Reservation) : Answer Unit :=
  if r.isReleasable then .ok () else .error r.notPending

/-- Refuses with the reason why the claim cannot be marked as expired. -/
def ensureExpirable (r : Reservation) (now : Timestamp) : Answer Unit :=
  if r.status ≠ .pending then .error r.notPending
  else if r.isExpired now then .ok ()
  else .error (.reservationNotExpired r.expiryDetail)

/-! ## Transitions -/

/-- The claim with a new status, changed now. -/
def moveTo (r : Reservation) (status : Status) (now : Timestamp) : Reservation :=
  { r with status, updatedAt := now }

/-- Confirms an active claim. -/
def confirm (r : Reservation) (now : Timestamp) : Answer Reservation :=
  (r.ensureConfirmable now).map fun _ => r.moveTo .confirmed now

/-- Releases a pending claim. -/
def release (r : Reservation) (now : Timestamp) : Answer Reservation :=
  r.ensureReleasable.map fun _ => r.moveTo .released now

/-- Marks a pending claim as expired once it is. -/
def expire (r : Reservation) (now : Timestamp) : Answer Reservation :=
  (r.ensureExpirable now).map fun _ => r.moveTo .expired now

/-- Moves the expiry of an active claim further out. -/
def extend? (r : Reservation) (by_ : Span) (now : Timestamp) : Option (Answer Reservation) :=
  if by_.Positive then
    match r.ensureConfirmable now with
    | .ok () => (r.expiresAt.add? by_).map fun expiresAt =>
        .ok { r with expiresAt, updatedAt := now }
    | .error f => some (.error f)
  else
    some (.error ((Fault.invalidDuration "extension must be positive").withDetail
      (Fault.entry "duration_ms" (Decimal.int by_.millis))))

end Reservation
end StockLedger
