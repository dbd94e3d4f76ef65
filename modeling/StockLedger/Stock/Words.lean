import StockLedger.Stock.Item

/-!
# Stock items in machine words

A machine keeps the counts of an item in signed words of 64 bits, and nothing about a word says that
it is the count of an item. The operations are those of `StockItem`, check by check, on such words.
An addition or a subtraction whose result does not fit has no answer (`none`); only the receipt of
units asks first.

* `Word.plus?`, `Word.minus?` : the arithmetic;
* `WordItem.create`, `WordItem.restore` : new items, and items read back from storage;
* `WordItem.reserve?`, `release?`, `confirm?`, `add?`, `decrement?` : the changes, with the item as
  they leave it;
* `WordItem.change?` : a change as data.
-/

namespace StockLedger

namespace Word

/-- The word for a number, if there is one. -/
def ofInt? (n : Int) : Option Int64 :=
  if -9223372036854775808 ≤ n ∧ n ≤ maxUnits then some (Int64.ofInt n) else none

def plus? (a b : Int64) : Option Int64 :=
  ofInt? (a.toInt + b.toInt)

def minus? (a b : Int64) : Option Int64 :=
  ofInt? (a.toInt - b.toInt)

end Word

/-- The units of one product, in words. -/
structure WordItem where
  id : ItemId
  productId : ProductId
  quantity : Int64
  reserved : Int64
  version : UInt64
  createdAt : Timestamp
  updatedAt : Timestamp
deriving DecidableEq, Repr

namespace WordItem

/-! ## Making items -/

/-- An item of which nothing is reserved. -/
def create (id : ItemId) (productId : ProductId) (quantity : Int64) (now : Timestamp) :
    Answer WordItem :=
  if quantity < 0 then
    .error (.invalidQuantity quantity.toInt)
  else
    .ok { id, productId, quantity, reserved := 0, version := StockItem.firstVersion
          createdAt := now, updatedAt := now }

/-- The item with the given counts, refused if they cannot be those of an item. -/
def restore (id : ItemId) (productId : ProductId) (quantity reserved : Int64) (version : UInt64)
    (createdAt updatedAt : Timestamp) : Answer WordItem :=
  if quantity < 0 ∨ reserved < 0 ∨ quantity < reserved then
    .error ((Fault.corruptRecord "stock item violates 0 <= reserved <= quantity").withDetail
      (Fault.entries (Fault.entry "item" id.text)
        (Fault.entries (Fault.entry "quantity" (Decimal.int quantity.toInt))
          (Fault.entry "reserved" (Decimal.int reserved.toInt)))))
  else
    .ok { id, productId, quantity, reserved, version, createdAt, updatedAt }

/-- Units that a new reservation can claim. -/
def available? (w : WordItem) : Option Int64 :=
  Word.minus? w.quantity w.reserved

/-! ## Changes -/

/-- What a change has answered, and the item as it has left it. -/
abbrev Outcome := Answer Unit × WordItem

/-- The refusal of more units than are available; they are counted once more for it. -/
def short? (w : WordItem) (units : Int64) : Option Outcome :=
  w.available?.map fun available =>
    (.error (.insufficientStock units.toInt available.toInt), w)

/-- Claims available units. -/
def reserve? (w : WordItem) (units : Int64) : Option Outcome :=
  if units ≤ 0 then
    some (.error (.invalidQuantity units.toInt), w)
  else
    w.available?.bind fun available =>
      if available < units then
        w.short? units
      else
        (Word.plus? w.reserved units).map fun reserved => (.ok (), { w with reserved })

/-- Gives claimed units back. -/
def release? (w : WordItem) (units : Int64) : Option Outcome :=
  if units ≤ 0 then
    some (.error (.invalidQuantity units.toInt), w)
  else if w.reserved < units then
    some (.error (.invalidRelease units.toInt w.reserved.toInt), w)
  else
    (Word.minus? w.reserved units).map fun reserved => (.ok (), { w with reserved })

/-- Takes claimed units out of the stock for good. -/
def confirm? (w : WordItem) (units : Int64) : Option Outcome :=
  if units ≤ 0 then
    some (.error (.invalidQuantity units.toInt), w)
  else if w.reserved < units then
    some (.error (.invalidConfirm units.toInt w.reserved.toInt), w)
  else if w.quantity < units then
    some (.error (.insufficientStock units.toInt w.quantity.toInt), w)
  else
    (Word.minus? w.reserved units).bind fun reserved =>
      (Word.minus? w.quantity units).map fun quantity =>
        (.ok (), { w with reserved, quantity })

/-- Receives new units, unless they are too many to be counted. -/
def add? (w : WordItem) (units : Int64) : Option Outcome :=
  if units ≤ 0 then
    some (.error (.invalidQuantity units.toInt), w)
  else
    match Word.plus? w.quantity units with
    | some quantity => some (.ok (), { w with quantity })
    | none => some (.error ((Fault.invalidQuantity units.toInt).withDetail "quantity overflow"), w)

/-- Writes off units that nobody has claimed. -/
def decrement? (w : WordItem) (units : Int64) : Option Outcome :=
  if units ≤ 0 then
    some (.error (.invalidQuantity units.toInt), w)
  else
    w.available?.bind fun available =>
      if available < units then
        w.short? units
      else
        (Word.minus? w.quantity units).map fun quantity => (.ok (), { w with quantity })

/-- Makes a change of so many units. -/
def change? (w : WordItem) : StockItem.Change → Int64 → Option Outcome
  | .reserve => w.reserve?
  | .release => w.release?
  | .confirm => w.confirm?
  | .add => w.add?
  | .decrement => w.decrement?

end WordItem
end StockLedger
