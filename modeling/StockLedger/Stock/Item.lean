import StockLedger.Fault.Causes
import StockLedger.Identity.Basic
import StockLedger.Time.Timestamp

/-!
# Stock items

A stock item counts the units of one product: those that are owned, and among them those that
pending reservations claim.

* `StockItem` : the counts, with `0 ≤ reserved ≤ quantity ≤ maxUnits`, and a version;
* `StockItem.create`, `StockItem.restore` : new items, and items read back from storage;
* `StockItem.reserve`, `release`, `confirm`, `add`, `decrement` : the changes;
* `StockItem.Change`, `StockItem.apply` : a change as data.

No change touches the version: only a store that has written the item advances it
(`StockItem.persisted`).
-/

namespace StockLedger

/-- The largest number of units that can be counted. -/
def maxUnits : Int := 9223372036854775807

/-- The units of one product. -/
structure StockItem where
  id : ItemId
  productId : ProductId
  quantity : Int
  reserved : Int
  version : UInt64
  createdAt : Timestamp
  updatedAt : Timestamp
  reserved_nonneg : 0 ≤ reserved
  reserved_le : reserved ≤ quantity
  quantity_le : quantity ≤ maxUnits
deriving DecidableEq, Repr

namespace StockItem

/-! ## Making items -/

/-- The version of a new item. -/
def firstVersion : UInt64 := 1

/-- An item of which nothing is reserved. -/
def create (id : ItemId) (productId : ProductId) (quantity : Int) (now : Timestamp) :
    Answer StockItem :=
  if h : 0 ≤ quantity ∧ quantity ≤ maxUnits then
    .ok { id, productId, quantity, reserved := 0, version := firstVersion
          createdAt := now, updatedAt := now
          reserved_nonneg := Int.le_refl 0, reserved_le := h.1, quantity_le := h.2 }
  else
    .error (.invalidQuantity quantity)

/-- The item with the given counts, refused if they cannot be those of an item. -/
def restore (id : ItemId) (productId : ProductId) (quantity reserved : Int) (version : UInt64)
    (createdAt updatedAt : Timestamp) : Answer StockItem :=
  if h : 0 ≤ reserved ∧ reserved ≤ quantity ∧ quantity ≤ maxUnits then
    .ok { id, productId, quantity, reserved, version, createdAt, updatedAt
          reserved_nonneg := h.1, reserved_le := h.2.1, quantity_le := h.2.2 }
  else
    .error ((Fault.corruptRecord "stock item violates 0 <= reserved <= quantity").withDetail
      (Fault.entries (Fault.entry "item" id.text)
        (Fault.entries (Fault.entry "quantity" (Decimal.int quantity))
          (Fault.entry "reserved" (Decimal.int reserved)))))

/-- Units that a new reservation can claim. -/
def available (s : StockItem) : Int :=
  s.quantity - s.reserved

/-! ## Changes -/

/-- Claims available units. -/
def reserve (s : StockItem) (units : Int) : Answer StockItem :=
  if h : 0 < units then
    if h' : units ≤ s.available then
      .ok { s with
        reserved := s.reserved + units
        reserved_nonneg := by have := s.reserved_nonneg; omega
        reserved_le := by unfold available at h'; omega }
    else
      .error (.insufficientStock units s.available)
  else
    .error (.invalidQuantity units)

/-- Gives claimed units back. -/
def release (s : StockItem) (units : Int) : Answer StockItem :=
  if h : 0 < units then
    if h' : units ≤ s.reserved then
      .ok { s with
        reserved := s.reserved - units
        reserved_nonneg := by omega
        reserved_le := by have := s.reserved_le; omega }
    else
      .error (.invalidRelease units s.reserved)
  else
    .error (.invalidQuantity units)

/-- Takes claimed units out of the stock for good. -/
def confirm (s : StockItem) (units : Int) : Answer StockItem :=
  if h : 0 < units then
    if h' : units ≤ s.reserved then
      if units ≤ s.quantity then
        .ok { s with
          quantity := s.quantity - units
          reserved := s.reserved - units
          reserved_nonneg := by omega
          reserved_le := by have := s.reserved_le; omega
          quantity_le := by have := s.quantity_le; omega }
      else
        .error (.insufficientStock units s.quantity)
    else
      .error (.invalidConfirm units s.reserved)
  else
    .error (.invalidQuantity units)

/-- Receives new units. -/
def add (s : StockItem) (units : Int) : Answer StockItem :=
  if h : 0 < units then
    if h' : s.quantity + units ≤ maxUnits then
      .ok { s with
        quantity := s.quantity + units
        reserved_le := by have := s.reserved_le; omega
        quantity_le := h' }
    else
      .error ((Fault.invalidQuantity units).withDetail "quantity overflow")
  else
    .error (.invalidQuantity units)

/-- Writes off units that nobody has claimed. -/
def decrement (s : StockItem) (units : Int) : Answer StockItem :=
  if h : 0 < units then
    if h' : units ≤ s.available then
      .ok { s with
        quantity := s.quantity - units
        reserved_le := by unfold available at h'; omega
        quantity_le := by have := s.quantity_le; omega }
    else
      .error (.insufficientStock units s.available)
  else
    .error (.invalidQuantity units)

/-- The kinds of change. -/
inductive Change
  | reserve
  | release
  | confirm
  | add
  | decrement
deriving DecidableEq, Repr

/-- Makes a change of so many units. -/
def apply (s : StockItem) : Change → Int → Answer StockItem
  | .reserve => s.reserve
  | .release => s.release
  | .confirm => s.confirm
  | .add => s.add
  | .decrement => s.decrement

/-- The item as a store has written it. -/
def persisted (s : StockItem) (version : UInt64) (at_ : Timestamp) : StockItem :=
  { s with version, updatedAt := at_ }

end StockItem
end StockLedger
