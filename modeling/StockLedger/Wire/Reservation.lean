import StockLedger.Json.Printer
import StockLedger.Json.Reader
import StockLedger.Wire.Leaf

/-!
# Stored reservations

* `ReservationRow` : the values of a stored claim, which need not be those of any claim;
* `ReservationRow.ofReservation`, `ReservationRow.toReservation` : between claims and rows;
* `ReservationRow.json`, `ReservationRow.ofJson?` : between rows and JSON.

The status of a row is any word at all; it is looked at first when a row is read back.
-/

namespace StockLedger

/-- The values of a stored claim. -/
structure ReservationRow where
  id : ReservationId
  itemId : ItemId
  orderId : OrderId
  quantity : Int
  status : String
  expiresAt : Timestamp
  createdAt : Timestamp
  updatedAt : Timestamp
deriving DecidableEq, Repr

namespace ReservationRow

/-! ## Claims -/

def ofReservation (r : Reservation) : ReservationRow :=
  { id := r.id, itemId := r.itemId, orderId := r.orderId, quantity := r.quantity
    status := r.status.word, expiresAt := r.expiresAt, createdAt := r.createdAt
    updatedAt := r.updatedAt }

/-- The claim of a row. -/
def toReservation (r : ReservationRow) : Answer Reservation :=
  match Reservation.Status.ofWord? r.status with
  | .error f => .error f
  | .ok status =>
      Reservation.restore r.id r.itemId r.orderId r.quantity status r.expiresAt r.createdAt
        r.updatedAt

/-! ## JSON -/

/-- The names of the fields, in order. -/
def names : List String :=
  ["id", "inventory_item_id", "order_id", "quantity", "status", "expires_at", "created_at",
    "updated_at"]

def json (r : ReservationRow) : Json :=
  .obj [("id", r.id.uuid.json), ("inventory_item_id", r.itemId.uuid.json),
    ("order_id", r.orderId.uuid.json), ("quantity", .integer r.quantity),
    ("status", .str r.status), ("expires_at", r.expiresAt.json),
    ("created_at", r.createdAt.json), ("updated_at", r.updatedAt.json)]

def ofJson? (j : Json) : Option ReservationRow :=
  match j.recordOf? names with
  | some [id, itemId, orderId, quantity, status, expiresAt, createdAt, updatedAt] => do
      let id ← Uuid.ofJson? id
      let itemId ← Uuid.ofJson? itemId
      let orderId ← Uuid.ofJson? orderId
      let quantity ← quantity.int64?
      let status ← status.string?
      let expiresAt ← Timestamp.ofJson? expiresAt
      let createdAt ← Timestamp.ofJson? createdAt
      let updatedAt ← Timestamp.ofJson? updatedAt
      some { id := ⟨id⟩, itemId := ⟨itemId⟩, orderId := ⟨orderId⟩, quantity, status, expiresAt
             createdAt, updatedAt }
  | _ => none

/-- The row that a text spells. -/
def ofString? (s : String) : Option ReservationRow :=
  (Json.ofString? s).bind ofJson?

end ReservationRow
end StockLedger
