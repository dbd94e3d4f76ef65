import StockLedger.Database.Ledger
import StockLedger.Memory.Reservations
import StockLedger.Wire.Reservation

/-!
# Reservations in a database

* `Database.readReservation` : the claim of a row;
* `DatabaseReservations.dialogue` : the dialogue for each request, always a single statement;
* `DatabaseReservations.migrate` : the dialogue that makes the tables.
-/

namespace StockLedger
namespace Database

/-- The stored values in a row; the first column that cannot be read is reported. -/
def reservationRow (r : Row) : Except Trouble ReservationRow := do
  let id ← r.uuid "id"
  let itemId ← r.uuid "inventory_item_id"
  let orderId ← r.uuid "order_id"
  let quantity ← r.int "quantity"
  let status ← r.text "status"
  let expiresAt ← r.instant "expires_at"
  let createdAt ← r.instant "created_at"
  let updatedAt ← r.instant "updated_at"
  return { id := ⟨id⟩, itemId := ⟨itemId⟩, orderId := ⟨orderId⟩, quantity, status, expiresAt
           createdAt, updatedAt }

/-- The claim of a row. -/
def readReservation (r : Row) : Answer Reservation :=
  match reservationRow r with
  | .ok row => row.toReservation
  | .error t => .error (.corruptRecord ("failed to decode reservation row: " ++ t.text))

/-- The values of a claim, in the order of its columns. -/
def reservationValues (x : Reservation) : List Value :=
  [.uuid x.id.uuid, .uuid x.itemId.uuid, .uuid x.orderId.uuid, .int8 x.quantity,
    .text x.status.word, .ofInstant x.expiresAt, .ofInstant x.createdAt, .ofInstant x.updatedAt]

end Database

namespace DatabaseReservations

open Database

/-! ## Statements -/

def table : String := reservations.name

def columns : List String := reservations.columns.map ColumnDef.name

/-- The claims that a condition picks. -/
def selectClaims (where_ : Condition) : Statement :=
  .select columns table where_ [] none

def selectExpired : Statement :=
  .select columns table
    (.and (.is "status" 1) (.compare .lt (.column "expires_at") (.param 2)))
    [.column "expires_at", .column "id"] (some 3)

def selectOfItem : Statement :=
  .select columns table (.and (.is "inventory_item_id" 1) (.or (.isNullText 2) (.is "status" 2)))
    [.column "created_at", .column "id"] none

/-- Writes what a claim may change. -/
def updateClaim : Statement :=
  .update table [("status", .param 2), ("expires_at", .param 3), ("updated_at", .param 4)]
    (.is "id" 1) []

/-! ## Dialogues -/

/-- The claim of the row that a statement may give. -/
def fetchClaim (operation : String) (statement : Statement) (key : Uuid) :
    Dialogue (Answer (Option Reservation)) := do
  let row ← fetchOptional operation statement [.uuid key]
  return match row with
    | .ok (some row) => (readReservation row).map some
    | .ok none => .ok none
    | .error f => .error f

/-- The claims of the rows that a statement gives. -/
def fetchClaims (operation : String) (statement : Statement) (params : List Value) :
    Dialogue (Answer (List Reservation)) := do
  let rows ← fetchAll operation statement params
  return rows.bind fun rows => rows.mapM readReservation

/-- The refusal of a request about a claim that is not stored. -/
def missing (id : ReservationId) : Fault :=
  .reservationNotFound (MemoryReservations.aboutReservation id)

/-- The stored claim. -/
def load (id : ReservationId) : Dialogue (Answer Reservation) := do
  let found ← fetchClaim "load_reservation" (selectClaims (.is "id" 1)) id.uuid
  return match found with
    | .ok (some x) => .ok x
    | .ok none => .error (missing id)
    | .error f => .error f

/-- Stores a new claim. -/
def save (x : Reservation) : Dialogue (Answer Unit) := do
  let affected ← execute (.insert table columns) (reservationValues x) fun t =>
    if t.isDuplicate then MemoryReservations.duplicate x else t.fault "insert_reservation"
  return affected.map fun _ => ()

/-- Stores a claim over the one with the same identity. -/
def update (x : Reservation) : Dialogue (Answer Unit) := do
  let affected ← execute updateClaim
    [.uuid x.id.uuid, .text x.status.word, .ofInstant x.expiresAt, .ofInstant x.updatedAt]
    (Trouble.fault "update_reservation")
  return match affected with
    | .ok 0 => .error (missing x.id)
    | .ok _ => .ok ()
    | .error f => .error f

/-- The dialogue for a request. -/
def dialogue : (c : ReservationCall) → Dialogue c.Reply
  | .load id => load id
  | .findByOrder orderId =>
      fetchClaim "load_reservation_by_order" (selectClaims (.is "order_id" 1)) orderId.uuid
  | .save x => save x
  | .update x => update x
  | .findExpired now limit =>
      fetchClaims "find_expired_reservations" selectExpired
        [.text Reservation.Status.pending.word, .ofInstant now, limitValue limit]
  | .findByItem itemId status =>
      fetchClaims "find_reservations_by_item" selectOfItem
        [.uuid itemId.uuid, (status.map fun s => Value.text s.word).getD .null]
  | .count status => do
      let total ← fetchValue "count_reservations_by_status" (.count table (some (.is "status" 1)))
        [.text status.word] (Row.int · "total")
      return total.map totalOf

/-- Makes the tables that do not exist yet. -/
def migrate : Dialogue (Answer Unit) := do
  let affected ← execute schema [] (Trouble.fault "migrate")
  return affected.map fun _ => ()

end DatabaseReservations
end StockLedger
