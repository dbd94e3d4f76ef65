import StockLedger.Time.Span

/-!
# Requests to a cache

A cache keeps texts under keys for a while. Nobody may rely on it.

* `CacheCall` : the requests, and `CacheCall.Value` what each is answered with;
* `CacheFault` : why a request had no answer, with its wording.
-/

namespace StockLedger

/-- Why a cache did not answer. -/
inductive CacheFault
  | unavailable (reason : String)
  | codec (reason : String)
deriving DecidableEq, Repr

/-- The wording of a failure. -/
def CacheFault.text : CacheFault → String
  | .unavailable reason => "cache unavailable: " ++ reason
  | .codec reason => "cache value could not be encoded or decoded: " ++ reason

/-- A request to a cache. -/
inductive CacheCall
  | get (key : String)
  | set (key value : String) (ttl : Span)
  | delete (keys : List String)
  | deletePattern (pattern : String)
deriving DecidableEq, Repr

namespace CacheCall

/-- What a request is answered with, if it is answered. -/
abbrev Value : CacheCall → Type
  | get _ => Option String
  | set _ _ _ | delete _ => Unit
  | deletePattern _ => Nat

/-- What a request is answered with. -/
abbrev Reply (c : CacheCall) : Type :=
  Except CacheFault c.Value

end CacheCall
end StockLedger
