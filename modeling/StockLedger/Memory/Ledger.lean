import StockLedger.Calls.Ledger
import StockLedger.Table.Basic

/-!
# A ledger in memory

* `MemoryLedger` : the items by identity, and an index from products to identities;
* `MemoryLedger.reply` : the reply to a request;
* `MemoryLedger.apply` : the ledger after a request.

Items are found by product through the index alone. A conditional write compares versions, stores
the item with the next version and leaves the index as it is.
-/

namespace StockLedger

/-- Keeps the first values of a list; limit 0 keeps all. -/
def takeLimit (limit : UInt64) (xs : List α) : List α :=
  if limit = 0 then xs else xs.take limit.toNat

/-- Stock items by identity, and identities by product. -/
structure MemoryLedger where
  items : Table ItemId StockItem
  byProduct : Table ProductId ItemId

namespace MemoryLedger

def empty : MemoryLedger :=
  ⟨∅, ∅⟩

/-! ## Look-up -/

/-- The parts of a detail about an item. -/
def aboutItem (id : ItemId) : String :=
  Fault.entry "item" id.text

def aboutProduct (productId : ProductId) : String :=
  Fault.entry "product" productId.text

/-- The stored item, or the refusal that there is none. -/
def load (l : MemoryLedger) (id : ItemId) : Answer StockItem :=
  match l.items.find? id with
  | some s => .ok s
  | none => .error (.itemNotFound (aboutItem id))

/-- The item to which the index leads. -/
def findByProduct (l : MemoryLedger) (productId : ProductId) : Answer StockItem :=
  match (l.byProduct.find? productId).bind l.items.find? with
  | some s => .ok s
  | none => .error (.productNotFound (aboutProduct productId))

/-- Is one item at most as scarce as another? Ties go by identity. -/
def scarcer (a b : StockItem) : Bool :=
  a.available < b.available || (a.available == b.available && a.id.uuid.value ≤ b.id.uuid.value)

/-- The items with few available units, the scarcest first. -/
def lowStock (l : MemoryLedger) (threshold : Int) (limit : UInt64) : List StockItem :=
  takeLimit limit ((l.items.values.filter fun s => s.available ≤ threshold).mergeSort scarcer)

/-! ## Changes -/

/-- The refusal to store an item twice. -/
def duplicate (s : StockItem) : Fault :=
  .itemAlreadyExists (Fault.entries (aboutItem s.id) (aboutProduct s.productId))

/-- Stores a new item, unless its identity or its product is taken. -/
def save (l : MemoryLedger) (s : StockItem) : Except Fault MemoryLedger :=
  if l.items.contains s.id || l.byProduct.contains s.productId then
    .error (duplicate s)
  else
    .ok { items := l.items.insert s.id s, byProduct := l.byProduct.insert s.productId s.id }

/-- The refusal of a write whose version is not the stored one. -/
def stale (s stored : StockItem) : Fault :=
  .versionConflict (Fault.entries (aboutItem s.id)
    (Fault.entries (Fault.entry "expected" (Decimal.nat s.version.toNat))
      (Fault.entry "actual" (Decimal.nat stored.version.toNat))))

/-- The item with the next version, written now. -/
def advance (s : StockItem) (now : Timestamp) : StockItem :=
  s.persisted (s.version + 1) now

/-- Stores an item over the one with the same identity and version. -/
def update (l : MemoryLedger) (s : StockItem) (now : Timestamp) :
    Except Fault (StockItem × MemoryLedger) :=
  match l.items.find? s.id with
  | none => .error (.itemNotFound (aboutItem s.id))
  | some stored =>
      if stored.version = s.version then
        let next := advance s now
        .ok (next, { l with items := l.items.insert s.id next })
      else
        .error (stale s stored)

/-- Removes an item and what the index has under its product. -/
def delete (l : MemoryLedger) (id : ItemId) : Except Fault (StockItem × MemoryLedger) :=
  match l.items.find? id with
  | none => .error (.itemNotFound (aboutItem id))
  | some s =>
      .ok (s, { items := l.items.erase id, byProduct := l.byProduct.erase s.productId })

/-- Raises the version of a stored item. -/
def bumpVersion (l : MemoryLedger) (id : ItemId) (now : Timestamp) :
    Except Fault (StockItem × MemoryLedger) :=
  match l.items.find? id with
  | none => .error (.itemNotFound (aboutItem id))
  | some s =>
      let next := advance s now
      .ok (next, { l with items := l.items.insert id next })

/-! ## Requests -/

/-- The reply to a request made now. -/
def reply (l : MemoryLedger) (now : Timestamp) : (c : LedgerCall) → c.Reply
  | .load id => l.load id
  | .findByProduct productId => l.findByProduct productId
  | .findMany ids => .ok (ids.filterMap l.items.find?)
  | .findLowStock threshold limit => .ok (l.lowStock threshold limit)
  | .count => .ok (.ofNat l.items.size)
  | .hasProduct productId => .ok (l.byProduct.contains productId)
  | .save s => (l.save s).map fun _ => ()
  | .update s =>
      match l.update s now with
      | .ok (next, _) => ⟨.ok (), next⟩
      | .error f => ⟨.error f, s⟩
  | .delete id => (l.delete id).map Prod.fst
  | .bumpVersion id => (l.bumpVersion id now).map Prod.fst

/-- The ledger after a request made now. -/
def apply (l : MemoryLedger) (now : Timestamp) : LedgerCall → MemoryLedger
  | .save s => (l.save s).toOption.getD l
  | .update s => ((l.update s now).toOption.map Prod.snd).getD l
  | .delete id => ((l.delete id).toOption.map Prod.snd).getD l
  | .bumpVersion id => ((l.bumpVersion id now).toOption.map Prod.snd).getD l
  | _ => l

end MemoryLedger
end StockLedger
