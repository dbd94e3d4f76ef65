import StockLedger.Json.Printer
import StockLedger.Json.Reader
import StockLedger.Wire.Leaf

/-!
# Notices in JSON

* `StockRelease.json`, `StockRelease.ofJson?` : between notices and JSON;
* `StockRelease.encode`, `StockRelease.decode?` : between notices and text.
-/

namespace StockLedger
namespace StockRelease

/-- The names of the fields, in order. -/
def names : List String :=
  ["reservation_id", "item_id", "product_id", "order_id", "quantity", "reason", "occurred_at"]

def json (n : StockRelease) : Json :=
  .obj [("reservation_id", n.reservationId.uuid.json), ("item_id", n.itemId.uuid.json),
    ("product_id", n.productId.uuid.json), ("order_id", n.orderId.uuid.json),
    ("quantity", .integer n.quantity), ("reason", n.reason.json),
    ("occurred_at", n.occurredAt.json)]

def ofJson? (j : Json) : Option StockRelease :=
  match j.recordOf? names with
  | some [reservationId, itemId, productId, orderId, quantity, reason, occurredAt] => do
      let reservationId ← Uuid.ofJson? reservationId
      let itemId ← Uuid.ofJson? itemId
      let productId ← Uuid.ofJson? productId
      let orderId ← Uuid.ofJson? orderId
      let quantity ← quantity.int64?
      let reason ← Reason.ofJson? reason
      let occurredAt ← Timestamp.ofJson? occurredAt
      some { reservationId := ⟨reservationId⟩, itemId := ⟨itemId⟩, productId := ⟨productId⟩
             orderId := ⟨orderId⟩, quantity, reason, occurredAt }
  | _ => none

/-- A notice as text. -/
def encode (n : StockRelease) : String :=
  n.json.print

/-- The notice that a text spells. -/
def decode? (s : String) : Option StockRelease :=
  (Json.ofString? s).bind ofJson?

end StockRelease
end StockLedger
