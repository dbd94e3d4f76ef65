import StockLedger.Stock.Item

/-!
# Requests to a ledger

A ledger keeps stock items. Whoever keeps them understands these requests.

* `LedgerCall` : the requests;
* `LedgerCall.Reply` : what each is answered with;
* `Written` : the answer to a conditional write, with the caller's copy of the item after it;
* `LedgerCall.refuse`, `LedgerCall.refuseAfter` : a refusal instead of a reply, or after one.
-/

namespace StockLedger

/-- A request to a ledger. -/
inductive LedgerCall
  | load (id : ItemId)
  | findByProduct (productId : ProductId)
  | findMany (ids : List ItemId)
  /-- Items with at most so many available units, the scarcest first; limit 0 means all. -/
  | findLowStock (threshold : Int) (limit : UInt64)
  | count
  | hasProduct (productId : ProductId)
  | save (item : StockItem)
  /-- Writes the item if the stored one has the same version. -/
  | update (item : StockItem)
  | delete (id : ItemId)
  /-- Raises the version of a stored item and changes nothing else. -/
  | bumpVersion (id : ItemId)
deriving DecidableEq, Repr

/-- The answer to a conditional write: how it ended, and the caller's copy afterwards. -/
structure Written where
  outcome : Answer Unit
  item : StockItem
deriving Repr

/-- The item as written, or the refusal. -/
def Written.answer (w : Written) : Answer StockItem :=
  w.outcome.map fun _ => w.item

namespace LedgerCall

/-- What a request is answered with. -/
abbrev Reply : LedgerCall → Type
  | load _ | findByProduct _ | delete _ | bumpVersion _ => Answer StockItem
  | findMany _ | findLowStock _ _ => Answer (List StockItem)
  | count => Answer UInt64
  | hasProduct _ => Answer Bool
  | save _ => Answer Unit
  | update _ => Written

/-- The refusal in a reply, if it is one. -/
def fault? : (c : LedgerCall) → c.Reply → Option Fault
  | load _, .error f | findByProduct _, .error f | delete _, .error f
  | bumpVersion _, .error f | findMany _, .error f | findLowStock _ _, .error f
  | count, .error f | hasProduct _, .error f | save _, .error f => some f
  | update _, w => match w.outcome with
      | .error f => some f
      | .ok () => none
  | _, _ => none

/-- A refusal of a request that was never carried out. -/
def refuse : (c : LedgerCall) → Fault → c.Reply
  | load _, f | findByProduct _, f | delete _, f | bumpVersion _, f => .error f
  | findMany _, f | findLowStock _ _, f => .error f
  | count, f => .error f
  | hasProduct _, f => .error f
  | save _, f => .error f
  | update item, f => ⟨.error f, item⟩

/-- A refusal in place of a reply that reported success. -/
def refuseAfter : (c : LedgerCall) → c.Reply → Fault → c.Reply
  | load _, _, f | findByProduct _, _, f | delete _, _, f | bumpVersion _, _, f => .error f
  | findMany _, _, f | findLowStock _ _, _, f => .error f
  | count, _, f => .error f
  | hasProduct _, _, f => .error f
  | save _, _, f => .error f
  | update _, w, f => ⟨.error f, w.item⟩

end LedgerCall
end StockLedger
