import StockLedger.ReadThrough.Ledger

/-!
# The service

The requests from which every workflow is built, and the answers that workflows give.

* `Service` : which ledger to ask, and how long a claim holds unless told otherwise;
* `Service.item`, `Service.write`, `Service.reservations` : single requests;
* `Availability`, `ReservationCounts` : what is reported about stock and claims.
-/

namespace StockLedger

/-- Which ledger is asked, and how long claims hold. -/
structure Service where
  ledger : LedgerAccess
  defaultTtl : Span := Reservation.defaultTtl

/-- The counts of a stock item. -/
structure Availability where
  itemId : ItemId
  productId : ProductId
  quantity : Int
  reserved : Int
  available : Int
  version : UInt64
deriving DecidableEq, Repr

def Availability.ofItem (s : StockItem) : Availability :=
  { itemId := s.id, productId := s.productId, quantity := s.quantity, reserved := s.reserved
    available := s.available, version := s.version }

/-- How many claims there are of each status. -/
structure ReservationCounts where
  pending : UInt64
  confirmed : UInt64
  released : UInt64
  expired : UInt64
deriving DecidableEq, Repr

namespace Service

/-! ## Single requests -/

/-- The item of a product. -/
def itemOf (v : Service) (productId : ProductId) : Request StockItem :=
  .ofProgram (v.ledger (.findByProduct productId))

/-- The item with an identity. -/
def item (v : Service) (id : ItemId) : Request StockItem :=
  .ofProgram (v.ledger (.load id))

/-- Writes an item if nobody else did since it was read; the item as written. -/
def write (v : Service) (s : StockItem) : Request StockItem :=
  .ofProgram (Written.answer <$> v.ledger (.update s))

/-- A request to the keeper of reservations. -/
def reservations (c : ReservationCall) : Request c.Value :=
  .ofProgram (.ask (.reservations c))

def now : Request Timestamp :=
  .lift (.ask .now)

def freshUuid : Request Uuid :=
  .lift (.ask .freshUuid)

def log (level : LogLevel) (message : String) : Request Unit :=
  .lift (.log level message)

/-- A request whose refusal is reported before it is passed on. -/
def reporting (message : String) (r : Request α) : Request α :=
  .ofProgram do
    match ← r.run with
    | .ok a => return .ok a
    | .error f => do
        Program.log .error message
        return .error f

/-- A value that may lie out of range, where the program breaks off. -/
def inRange (a : Option (Answer α)) : Request α :=
  .ofProgram (.demand a)

/-! ## Reports -/

/-- The counts of a product. -/
def availability (v : Service) (productId : ProductId) : Request Availability := do
  let s ← v.itemOf productId
  return .ofItem s

/-- The counts of scarce items, the scarcest first. -/
def lowStock (v : Service) (threshold : Int) (limit : UInt64) : Request (List Availability) := do
  let xs ← Request.ofProgram (v.ledger (.findLowStock threshold limit))
  return xs.map .ofItem

/-- The number of claims of each status. -/
def counts : Request ReservationCounts := do
  let pending ← reservations (.count .pending)
  let confirmed ← reservations (.count .confirmed)
  let released ← reservations (.count .released)
  let expired ← reservations (.count .expired)
  return { pending, confirmed, released, expired }

/-- A stored claim. -/
def reservation (id : ReservationId) : Request Reservation :=
  reservations (.load id)

end Service
end StockLedger
