import StockLedger.Calls.Cache
import StockLedger.Table.Basic
import StockLedger.Text.Glob
import StockLedger.Time.Span

/-!
# A cache in memory

* `MemoryCache` : texts by key, each with the uptime until which it lives, and a switch;
* `MemoryCache.reply` : the reply to a request;
* `MemoryCache.apply` : the cache after a request;
* `MemoryCache.countable` : can the clock of the machine tell when the text of a request dies?

A dead text is removed when it is next looked up; until then it still counts as stored, also when
a pattern is deleted. A cache that is switched off refuses every request. A request whose text would
outlive the clock is neither answered nor refused: whoever makes it is broken off, before anything
else is looked at, and the cache stays as it is.
-/

namespace StockLedger

/-- A text and the uptime, in nanoseconds, from which on it is dead. -/
structure CacheEntry where
  value : String
  deadline : Int
deriving DecidableEq, Repr

/-- Texts by key; `online` says whether requests are answered. -/
structure MemoryCache where
  entries : Table String CacheEntry
  online : Bool := true

namespace MemoryCache

def empty : MemoryCache :=
  { entries := ∅ }

/-- Is a text still alive? -/
def alive (uptime : Nat) (e : CacheEntry) : Bool :=
  (uptime : Int) < e.deadline

/-- The living text under a key, whether or not the cache is switched on. -/
def peek? (c : MemoryCache) (uptime : Nat) (key : String) : Option String :=
  ((c.entries.find? key).filter (alive uptime)).map CacheEntry.value

/-- How many texts are alive. -/
def size (c : MemoryCache) (uptime : Nat) : Nat :=
  c.entries.values.countP (alive uptime)

/-- Does a key fit a pattern? -/
def fits (pattern key : String) : Bool :=
  Glob.isMatch pattern.toList key.toList

/-- The refusal of a cache that is switched off. -/
def offline : CacheFault :=
  .unavailable "in-memory cache is offline"

/-- The uptime, in nanoseconds, at which the clock of a machine ends: it counts 2^63 seconds. -/
def clockEnd : Int :=
  9223372036854775808 * Span.perSecond

/-- Does a text that is to live so long die before the clock ends? -/
def endsInTime (uptime : Nat) (ttl : Span) : Bool :=
  uptime + ttl.nanos < clockEnd

/-- Can the clock tell when the text of a request dies? If not, there is no reply to the request. -/
def countable (uptime : Nat) : CacheCall → Bool
  | .set _ _ ttl => endsInTime uptime ttl
  | .get _ | .delete _ | .deletePattern _ => true

/-! ## Requests -/

/-- The reply of a cache that is switched on. -/
def value (c : MemoryCache) (uptime : Nat) : (r : CacheCall) → r.Value
  | .get key => c.peek? uptime key
  | .set _ _ _ => ()
  | .delete _ => ()
  | .deletePattern pattern => c.entries.keys.countP (fits pattern)

/-- The reply to a request that has one. -/
def reply (c : MemoryCache) (uptime : Nat) (r : CacheCall) : r.Reply :=
  if c.online then .ok (c.value uptime r) else .error offline

/-- The texts after a request that has a reply, if the cache is switched on. -/
def change (c : MemoryCache) (uptime : Nat) : CacheCall → Table String CacheEntry
  | .get key =>
      if (c.peek? uptime key).isSome then c.entries else c.entries.erase key
  | .set key value ttl => c.entries.insert key ⟨value, uptime + ttl.nanos⟩
  | .delete keys => c.entries.eraseIf fun key _ => keys.contains key
  | .deletePattern pattern => c.entries.eraseIf fun key _ => fits pattern key

/-- The cache after a request that has a reply. -/
def apply (c : MemoryCache) (uptime : Nat) (r : CacheCall) : MemoryCache :=
  if c.online then { c with entries := c.change uptime r } else c

end MemoryCache
end StockLedger
