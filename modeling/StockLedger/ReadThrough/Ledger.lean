import StockLedger.Program.Basic
import StockLedger.ReadThrough.Keys
import StockLedger.Wire.Item

/-!
# A ledger read through a cache

Reads look into the cache first and fill it; writes go to the ledger and drop what they outdate.
Whatever the cache does, a request fails only if the ledger refuses it.

* `LedgerAccess` : a way to have requests to a ledger answered;
* `LedgerAccess.direct` : ask the ledger;
* `LedgerAccess.cached` : ask the ledger through the cache;
* `CacheLifetimes` : how long cached texts live.
-/

namespace StockLedger

/-- A way to have requests to a ledger answered. -/
abbrev LedgerAccess : Type :=
  (c : LedgerCall) → Program c.Reply

/-- How long cached texts live. -/
structure CacheLifetimes where
  item : Span := .ofSeconds 300
  lowStock : Span := .ofSeconds 60
deriving DecidableEq, Repr

/-- The ledger itself. -/
def LedgerAccess.direct : LedgerAccess := fun c => .ask (.ledger c)

namespace ReadThrough

open Program (log)

/-! ## The cache -/

/-- A request to the cache. -/
def cache (c : CacheCall) : Program c.Reply :=
  .ask (.cache c)

/-- Drops what is cached under some keys. -/
def forget (keys : List String) : Program Unit := do
  match ← cache (.delete keys) with
  | .ok () => return
  | .error _ => log .warn "cache invalidation failed"

/-- The item that is cached under a key; a text that is none is dropped. -/
def cachedItem (key : String) : Program (Option StockItem) := do
  match ← cache (.get key) with
  | .ok none => return none
  | .ok (some text) =>
      match StockItem.decode? text with
      | some s => return some s
      | none => do
          log .warn "discarding undecodable cache entry"
          forget [key]
          return none
  | .error _ => do
      log .warn "cache read failed; falling back to store"
      return none

/-- The list that is cached under a key. -/
def cachedItems (key : String) : Program (Option (List StockItem)) := do
  match ← cache (.get key) with
  | .ok none => return none
  | .ok (some text) =>
      match StockItem.decodeAll? text with
      | some xs => return some xs
      | none => do
          log .warn "discarding undecodable cache entry"
          return none
  | .error _ => do
      log .warn "cache read failed; falling back to store"
      return none

/-- Caches a text. -/
def keep (key text : String) (ttl : Span) : Program Unit := do
  match ← cache (.set key text ttl) with
  | .ok () => return
  | .error _ => log .warn "cache write failed"

/-- Caches an item under its identity and under its product. -/
def populate (lifetimes : CacheLifetimes) (s : StockItem) : Program Unit := do
  keep (CacheKey.item s.id) s.encode lifetimes.item
  keep (CacheKey.product s.productId) s.encode lifetimes.item

/-- Drops every cached list. -/
def forgetLists (onSuccess : Program Unit) : Program Unit := do
  match ← cache (.deletePattern CacheKey.allLowStock) with
  | .ok _ => onSuccess
  | .error _ => log .warn "low-stock invalidation failed"

/-- Drops an item from the cache, and every list. -/
def invalidate (id : ItemId) (productId : ProductId) : Program Unit := do
  forget [CacheKey.item id, CacheKey.product productId]
  forgetLists (log .debug "invalidated low-stock aggregates")

/-! ## Reads -/

/-- An item from the cache, or else from the ledger. -/
def readItem (lifetimes : CacheLifetimes) (key : String) (fetch : Program (Answer StockItem)) :
    Program (Answer StockItem) := do
  match ← cachedItem key with
  | some s => return .ok s
  | none =>
      match ← fetch with
      | .ok s => do
          populate lifetimes s
          return .ok s
      | .error f => return .error f

/-- A list of scarce items from the cache, or else from the ledger. -/
def readLowStock (lifetimes : CacheLifetimes) (key : String)
    (fetch : Program (Answer (List StockItem))) : Program (Answer (List StockItem)) := do
  match ← cachedItems key with
  | some xs => return .ok xs
  | none =>
      match ← fetch with
      | .ok xs => do
          keep key (StockItem.encodeAll xs) lifetimes.lowStock
          return .ok xs
      | .error f => return .error f

/-- Does a product have an item? A cached text proves it; its absence proves nothing. -/
def readHasProduct (key : String) (fetch : Program (Answer Bool)) : Program (Answer Bool) := do
  match ← cache (.get key) with
  | .ok (some _) => return .ok true
  | .ok none => fetch
  | .error _ => do
      log .warn "cache read failed; falling back to store"
      fetch

/-! ## Writes -/

/-- Stores a new item and caches it; the cached lists may lack it. -/
def writeNew (lifetimes : CacheLifetimes) (s : StockItem) (store : Program (Answer Unit)) :
    Program (Answer Unit) := do
  match ← store with
  | .ok () => do
      populate lifetimes s
      forgetLists (return)
      return .ok ()
  | .error f => return .error f

/-- Does the outcome of a write show that what is cached may be outdated? -/
def outdates : Answer Unit → Bool
  | .ok () => true
  | .error f => f.category == .conflict

/-- A conditional write; a lost race also shows that the cached copy is outdated. -/
def writeConditional (store : Program Written) : Program Written := do
  let w ← store
  if outdates w.outcome then
    invalidate w.item.id w.item.productId
    return w
  else
    return w

/-- A change that answers with the item it was made to. -/
def writeOver (store : Program (Answer StockItem)) : Program (Answer StockItem) := do
  match ← store with
  | .ok s => do
      invalidate s.id s.productId
      return .ok s
  | .error f => return .error f

end ReadThrough

open ReadThrough in
/-- The ledger behind the cache. -/
def LedgerAccess.cached (lifetimes : CacheLifetimes) : LedgerAccess
  | .load id => readItem lifetimes (CacheKey.item id) (direct (.load id))
  | .findByProduct productId =>
      readItem lifetimes (CacheKey.product productId) (direct (.findByProduct productId))
  | .findMany ids => direct (.findMany ids)
  | .findLowStock threshold limit =>
      readLowStock lifetimes (CacheKey.lowStock threshold limit)
        (direct (.findLowStock threshold limit))
  | .count => direct .count
  | .hasProduct productId =>
      readHasProduct (CacheKey.product productId) (direct (.hasProduct productId))
  | .save s => writeNew lifetimes s (direct (.save s))
  | .update s => writeConditional (direct (.update s))
  | .delete id => writeOver (direct (.delete id))
  | .bumpVersion id => writeOver (direct (.bumpVersion id))

/-- Whether a cache stands before the ledger. -/
inductive Stack
  | plain
  | cached (lifetimes : CacheLifetimes)
deriving DecidableEq, Repr

def Stack.ledger : Stack → LedgerAccess
  | .plain => .direct
  | .cached lifetimes => .cached lifetimes

end StockLedger
