import StockLedger.Calls.Cache
import StockLedger.KeyValue.Client

/-!
# A cache on a key-value server

* `KeyValue.Purge` : the states of a walk that deletes the keys of a pattern;
* `RemoteCache.client` : the client for each request.

The server keeps the texts, tells which keys fit a pattern and forgets texts in time. A walk goes
from page to page by the cursors that the server gives, from 0 to 0, and deletes the keys of each
page before it asks for the next.
-/

namespace StockLedger
namespace KeyValue

/-- The refusal of a request to a cache that a trouble leads to. -/
def Trouble.cacheFault (t : Trouble) : CacheFault :=
  .unavailable t.text

/-! ## Deleting by pattern -/

/-- A walk: it asks for a page, or for the end of the keys of a page, or it has ended. -/
inductive Purge
  | scanning (cursor removed : UInt64)
  | dropping (keys : List String) (next removed : UInt64)
  | ended (outcome : Except CacheFault Nat)
deriving Repr

namespace Purge

/-- After a page: the walk ends where it began. -/
def proceed (next removed : UInt64) : Purge :=
  if next = 0 then .ended (.ok removed.toNat) else .scanning next removed

/-- After the keys of a page are known. -/
def drop (keys : List String) (next removed : UInt64) : Purge :=
  if keys = [] then proceed next removed else .dropping keys next removed

def turn (pattern : String) : Purge → Turn (Except CacheFault Nat)
  | .scanning cursor _ => .send (.scan cursor pattern)
  | .dropping keys _ _ => .send (.del keys)
  | .ended outcome => .ended outcome

/-- The walk after a reply; a count below zero counts for nothing. -/
def hear : Purge → Reply → Purge
  | .scanning _ removed, r =>
      match r.page with
      | .ok (next, keys) => drop keys next removed
      | .error t => .ended (.error t.cacheFault)
  | .dropping _ next removed, r =>
      match r.count with
      | .ok n => proceed next (removed + .ofNat n.toNat)
      | .error t => .ended (.error t.cacheFault)
  | .ended outcome, _ => .ended outcome

/-- The client that deletes the keys of a pattern. -/
def client (pattern : String) : Client (Except CacheFault Nat) :=
  { State := Purge, start := .scanning 0 0, turn := turn pattern, hear }

end Purge
end KeyValue

namespace RemoteCache

open KeyValue

/-- How many seconds a text lives: whole ones, and at least one. -/
def lifetime (ttl : Span) : Nat :=
  max 1 ttl.seconds.toNat

/-- The client for a request. -/
def client : (c : CacheCall) → Client c.Reply
  | .get key => .single (.get key) fun r => r.text?.mapError Trouble.cacheFault
  | .set key value ttl =>
      .single (.set key value (lifetime ttl)) fun r => r.accepted.mapError Trouble.cacheFault
  | .delete [] => .ended (.ok ())
  | .delete keys =>
      .single (.del keys) fun r => (r.count.map fun _ => ()).mapError Trouble.cacheFault
  | .deletePattern pattern => Purge.client pattern

/-- A request to the cache on a host. -/
def ask (h : Host) (address : String) (c : CacheCall) : Option c.Reply × List Command :=
  h.serve address (fun t => .error t.cacheFault) (client c)

end RemoteCache
end StockLedger
