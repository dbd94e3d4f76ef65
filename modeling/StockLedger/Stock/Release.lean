import StockLedger.Stock.Reservation

/-!
# Notices of released stock

What is announced when claimed units return to the available ones.

* `StockRelease` : the notice;
* `StockRelease.ofReservation` : the notice about a settled claim.
-/

namespace StockLedger

namespace StockRelease

/-- Why units were given back. -/
inductive Reason
  | reservationExpired
deriving DecidableEq, Repr

/-- The word for a reason. -/
def Reason.word : Reason → String
  | .reservationExpired => "reservation_expired"

/-- The name under which notices are announced. -/
def eventType : String := "inventory.stock.released"

end StockRelease

/-- Units of a claim are available again. -/
structure StockRelease where
  reservationId : ReservationId
  itemId : ItemId
  productId : ProductId
  orderId : OrderId
  quantity : Int
  reason : StockRelease.Reason
  occurredAt : Timestamp
deriving DecidableEq, Repr

/-- The notice about a claim of a product. -/
def StockRelease.ofReservation (r : Reservation) (productId : ProductId) (reason : Reason)
    (occurredAt : Timestamp) : StockRelease :=
  { reservationId := r.id, itemId := r.itemId, productId, orderId := r.orderId
    quantity := r.quantity, reason, occurredAt }

end StockLedger
