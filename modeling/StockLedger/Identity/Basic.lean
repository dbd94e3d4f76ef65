import StockLedger.Identity.Uuid

/-!
# Identities

What the ledger tells apart by UUID. Each kind of identity has its own type.

* `ItemId`, `ProductId`, `ReservationId`, `OrderId` : the four kinds;
* `IdSource` : makes identities that nobody else has, in ascending order.
-/

namespace StockLedger

/-- Names a stock item. -/
structure ItemId where
  uuid : Uuid
deriving DecidableEq, Repr

/-- Names a product. -/
structure ProductId where
  uuid : Uuid
deriving DecidableEq, Repr

/-- Names a reservation. -/
structure ReservationId where
  uuid : Uuid
deriving DecidableEq, Repr

/-- Names an order. -/
structure OrderId where
  uuid : Uuid
deriving DecidableEq, Repr

def ItemId.text (i : ItemId) : String := i.uuid.text

def ProductId.text (i : ProductId) : String := i.uuid.text

def ReservationId.text (i : ReservationId) : String := i.uuid.text

def OrderId.text (i : OrderId) : String := i.uuid.text

/-! ## Fresh identities -/

/--
A source of UUIDs of version 7: a millisecond since 1970, and a counter in the low bits for what
was made since.
-/
structure IdSource where
  millis : Nat
  made : Nat := 0
deriving DecidableEq, Repr

namespace IdSource

/-- How many serial numbers fit into the 62 bits below the variant. -/
def serials : Nat := 0x4000000000000000

/-- How many milliseconds fit into the 48 bits above the version. -/
def spanMillis : Nat := 0x1000000000000

/-- The bit that marks the variant of a UUID. -/
def variantBit : Nat := 0x8000000000000000

/-- The identity with the given serial number. -/
def uuidAt (s : IdSource) (serial : Nat) : Uuid :=
  .ofNat ((s.millis % spanMillis * 16 + 7) * Uuid.versionUnit + variantBit + serial % serials)

/-- The next identity, and the source without it. -/
def next (s : IdSource) : Uuid × IdSource :=
  (s.uuidAt s.made, { s with made := s.made + 1 })

/-- Is this one of the identities that were made? -/
def hasMade (s : IdSource) (u : Uuid) : Bool :=
  u == s.uuidAt (u.value % serials) && u.value % serials < s.made

/-- The next `n` identities. -/
def take (s : IdSource) (n : Nat) : List Uuid :=
  (List.range n).map fun i => s.uuidAt (s.made + i)

end IdSource
end StockLedger
