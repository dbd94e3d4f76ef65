import StockLedger.Calls.Reservations
import StockLedger.Memory.Ledger
import StockLedger.Table.Basic

/-!
# Reservations in memory

* `MemoryReservations` : the claims by identity, and an index from orders to identities;
* `MemoryReservations.reply` : the reply to a request;
* `MemoryReservations.apply` : the claims after a request.

A write overwrites the whole stored claim and leaves the index as it is.
-/

namespace StockLedger

/-- Claims by identity, and identities by order. -/
structure MemoryReservations where
  rows : Table ReservationId Reservation
  byOrder : Table OrderId ReservationId

namespace MemoryReservations

def empty : MemoryReservations :=
  ⟨∅, ∅⟩

def aboutReservation (id : ReservationId) : String :=
  Fault.entry "reservation" id.text

/-! ## Look-up -/

/-- The stored claim, or the refusal that there is none. -/
def load (m : MemoryReservations) (id : ReservationId) : Answer Reservation :=
  match m.rows.find? id with
  | some r => .ok r
  | none => .error (.reservationNotFound (aboutReservation id))

/-- The claim to which the index leads. -/
def findByOrder (m : MemoryReservations) (orderId : OrderId) : Option Reservation :=
  (m.byOrder.find? orderId).bind m.rows.find?

/-- The order by an instant of each claim, then by identity. -/
def earlier (instant : Reservation → Timestamp) (a b : Reservation) : Bool :=
  instant a < instant b || (instant a == instant b && a.id.uuid.value ≤ b.id.uuid.value)

/-- Is a claim still pending though it expired before an instant? -/
def overdue (now : Timestamp) (r : Reservation) : Bool :=
  r.status == .pending && r.expiresAt < now

/-- The overdue claims, the oldest first. -/
def expired (m : MemoryReservations) (now : Timestamp) (limit : UInt64) : List Reservation :=
  takeLimit limit ((m.rows.values.filter (overdue now)).mergeSort (earlier Reservation.expiresAt))

/-- The claims on an item, perhaps of one status only, in the order in which they were made. -/
def ofItem (m : MemoryReservations) (itemId : ItemId) (status : Option Reservation.Status) :
    List Reservation :=
  (m.rows.values.filter fun r => r.itemId == itemId && status.all (· == r.status)).mergeSort
    (earlier Reservation.createdAt)

/-! ## Changes -/

/-- The refusal to store a claim twice. -/
def duplicate (r : Reservation) : Fault :=
  .reservationAlreadyExists
    (Fault.entries (aboutReservation r.id) (Fault.entry "order" r.orderId.text))

/-- Stores a new claim, unless its identity or its order is taken. -/
def save (m : MemoryReservations) (r : Reservation) : Except Fault MemoryReservations :=
  if m.rows.contains r.id || m.byOrder.contains r.orderId then
    .error (duplicate r)
  else
    .ok { rows := m.rows.insert r.id r, byOrder := m.byOrder.insert r.orderId r.id }

/-- Stores a claim over the one with the same identity. -/
def update (m : MemoryReservations) (r : Reservation) : Except Fault MemoryReservations :=
  if m.rows.contains r.id then
    .ok { m with rows := m.rows.insert r.id r }
  else
    .error (.reservationNotFound (aboutReservation r.id))

/-! ## Requests -/

/-- The reply to a request. -/
def reply (m : MemoryReservations) : (c : ReservationCall) → c.Reply
  | .load id => m.load id
  | .findByOrder orderId => .ok (m.findByOrder orderId)
  | .save r => (m.save r).map fun _ => ()
  | .update r => (m.update r).map fun _ => ()
  | .findExpired now limit => .ok (m.expired now limit)
  | .findByItem itemId status => .ok (m.ofItem itemId status)
  | .count status => .ok (.ofNat (m.rows.values.countP fun r => r.status == status))

/-- The claims after a request. -/
def apply (m : MemoryReservations) : ReservationCall → MemoryReservations
  | .save r => (m.save r).toOption.getD m
  | .update r => (m.update r).toOption.getD m
  | _ => m

end MemoryReservations
end StockLedger
