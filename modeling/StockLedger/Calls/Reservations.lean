import StockLedger.Stock.Reservation

/-!
# Requests to a keeper of reservations

* `ReservationCall` : the requests;
* `ReservationCall.Value` : what each is answered with, unless it is refused.
-/

namespace StockLedger

/-- A request to a keeper of reservations. -/
inductive ReservationCall
  | load (id : ReservationId)
  | findByOrder (orderId : OrderId)
  | save (r : Reservation)
  /-- Overwrites a stored claim, whatever it is now. -/
  | update (r : Reservation)
  /-- Pending claims that expired before an instant, the oldest first; limit 0 means all. -/
  | findExpired (now : Timestamp) (limit : UInt64)
  | findByItem (itemId : ItemId) (status : Option Reservation.Status)
  | count (status : Reservation.Status)
deriving DecidableEq, Repr

namespace ReservationCall

/-- What a request is answered with, unless it is refused. -/
abbrev Value : ReservationCall → Type
  | load _ => Reservation
  | findByOrder _ => Option Reservation
  | save _ | update _ => Unit
  | findExpired _ _ | findByItem _ _ => List Reservation
  | count _ => UInt64

/-- What a request is answered with. -/
abbrev Reply (c : ReservationCall) : Type :=
  Answer c.Value

end ReservationCall
end StockLedger
