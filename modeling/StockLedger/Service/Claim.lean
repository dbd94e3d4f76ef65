import StockLedger.Service.Basic

/-!
# Making claims and settling them

A claim is written in two steps, first the item and then the reservation; so is its settlement.
Nothing undoes the first step if the second fails.

* `Service.reserve` : claims units of a product for an order;
* `Settlement`, `Service.settle` : the three ways in which a claim ends;
* `Service.confirm`, `release`, `expire` : these ways, from a stored claim or a given one;
* `Service.extend` : moves the expiry of a claim further out.
-/

namespace StockLedger

/-- A claim that was made: its identity, when it expires, and what is left. -/
structure Reserved where
  reservationId : ReservationId
  expiresAt : Timestamp
  available : Int
deriving DecidableEq, Repr

/-- How a claim ends. -/
inductive Settlement
  | confirm
  | release
  | expire
deriving DecidableEq, Repr

namespace Settlement

/-- What must hold of the claim before its item is looked at. An expiry is checked afterwards. -/
def guard (k : Settlement) (r : Reservation) (now : Timestamp) : Answer Unit :=
  match k with
  | confirm => r.ensureConfirmable now
  | release => r.ensureReleasable
  | expire => .ok ()

/-- What happens to the units: confirmed ones leave the stock. -/
def change : Settlement → StockItem.Change
  | confirm => .confirm
  | release | expire => .release

/-- What happens to the claim. -/
def transition (k : Settlement) (r : Reservation) (now : Timestamp) : Answer Reservation :=
  match k with
  | confirm => r.confirm now
  | release => r.release now
  | expire => r.expire now

end Settlement

namespace Service

/-! ## Claims -/

/-- The refusal to claim for an order that has a claim. -/
def alreadyReserved (orderId : OrderId) (r : Reservation) : Fault :=
  .reservationAlreadyExists
    (Fault.entries (Fault.entry "order" orderId.text) (Fault.entry "reservation" r.id.text))

/-- Refuses an order that has a claim already. -/
def ensureUnclaimed (orderId : OrderId) : Request Unit := do
  match ← reservations (.findByOrder orderId) with
  | some r => throw (alreadyReserved orderId r)
  | none => return

/-- Claims units of a product for an order, until `ttl` has passed. -/
def reserve (v : Service) (productId : ProductId) (orderId : OrderId) (units : Int)
    (ttl : Option Span) : Request Reserved := do
  if units ≤ 0 then
    throw (Fault.invalidQuantity units)
  else
    ensureUnclaimed orderId
    let s ← v.itemOf productId
    let s ← Request.ofAnswer (s.reserve units)
    let t ← now
    let id ← freshUuid
    let r ← inRange (Reservation.open? ⟨id⟩ s.id orderId units (ttl.getD v.defaultTtl) t)
    let s ← v.write s
    reporting
      "reservation write failed after ledger update; reserved count is now ahead of reservations"
      (reservations (.save r))
    log .info "stock reserved"
    return { reservationId := r.id, expiresAt := r.expiresAt, available := s.available }

/-! ## Settlements -/

/-- Ends a claim: checks it, changes the item and the claim, writes the one and then the other. -/
def settle (v : Service) (k : Settlement) (r : Reservation) :
    Request (Reservation × StockItem) := do
  let t ← now
  Request.ofAnswer (k.guard r t)
  let s ← v.item r.itemId
  let s ← Request.ofAnswer (s.apply k.change r.quantity)
  let r ← Request.ofAnswer (k.transition r t)
  let s ← v.write s
  reporting
    "reservation write failed after ledger update; ledger and reservation disagree"
    (reservations (.update r))
  log .info "reservation settled"
  return (r, s)

/-- Takes the claimed units out of the stock. -/
def confirm (v : Service) (id : ReservationId) : Request Reservation := do
  let r ← reservations (.load id)
  let (r, _) ← v.settle .confirm r
  return r

/-- Gives the claimed units back, also after the claim has expired. -/
def release (v : Service) (id : ReservationId) : Request Reservation := do
  let r ← reservations (.load id)
  let (r, _) ← v.settle .release r
  return r

/-- Gives the units of an expired claim back. -/
def expire (v : Service) (r : Reservation) : Request (Reservation × StockItem) :=
  v.settle .expire r

/-- Moves the expiry of a claim further out. -/
def extend (id : ReservationId) (by_ : Span) : Request Reservation := do
  let r ← reservations (.load id)
  let t ← now
  let r ← inRange (r.extend? by_ t)
  reservations (.update r)
  log .debug "reservation extended"
  return r

end Service
end StockLedger
