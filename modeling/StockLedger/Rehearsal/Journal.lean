import StockLedger.Program.Basic

/-!
# The journal of a rehearsal

One line for each request that reached a ledger, a keeper of reservations or a cache: the method,
what it was about, and how it ended.

* `Call.method?` : the name of the method behind a request;
* `Call.line?` : the line for a request and its reply.
-/

namespace StockLedger

/-! ## Methods -/

def LedgerCall.method : LedgerCall → String
  | load _ => "ledger.load"
  | findByProduct _ => "ledger.find_by_product_id"
  | findMany _ => "ledger.find_many"
  | findLowStock _ _ => "ledger.find_low_stock"
  | count => "ledger.count"
  | hasProduct _ => "ledger.exists_by_product_id"
  | save _ => "ledger.save"
  | update _ => "ledger.update"
  | delete _ => "ledger.delete"
  | bumpVersion _ => "ledger.increment_version"

def ReservationCall.method : ReservationCall → String
  | load _ => "reservations.load"
  | findByOrder _ => "reservations.load_by_order_id"
  | save _ => "reservations.save"
  | update _ => "reservations.update"
  | findExpired _ _ => "reservations.find_expired"
  | findByItem _ _ => "reservations.find_by_item_id"
  | count _ => "reservations.count_by_status"

def CacheCall.method : CacheCall → String
  | get _ => "cache.get"
  | set _ _ _ => "cache.set"
  | delete _ => "cache.delete"
  | deletePattern _ => "cache.delete_pattern"

/-- The name of the method behind a request, if it goes to a store or to the cache. -/
def Call.method? : Call → Option String
  | ledger c => some c.method
  | reservations c => some c.method
  | cache c => some c.method
  | findExpiredWithin _ t limit => some (ReservationCall.findExpired t limit).method
  | _ => none

/-! ## What requests are about -/

def LedgerCall.subject : LedgerCall → String
  | load id | delete id | bumpVersion id => id.text
  | findByProduct productId | hasProduct productId => productId.text
  | findMany ids => Decimal.nat ids.length
  | findLowStock threshold limit => Decimal.int threshold ++ " " ++ Decimal.nat limit.toNat
  | count => "-"
  | save s => s.id.text
  | update s => s.id.text ++ " v" ++ Decimal.nat s.version.toNat

def ReservationCall.subject : ReservationCall → String
  | load id => id.text
  | findByOrder orderId => orderId.text
  | save r => r.id.text
  | update r => r.id.text ++ " " ++ r.status.word
  | findExpired _ limit => Decimal.nat limit.toNat
  | findByItem itemId _ => itemId.text
  | count status => status.word

def CacheCall.subject : CacheCall → String
  | get key => key
  | set key _ ttl => key ++ " " ++ Decimal.int ttl.millis ++ "ms"
  | delete keys => ",".intercalate keys
  | deletePattern pattern => pattern

/-! ## How requests end -/

/-- The word for the end of a request to a store. -/
def Fault.ending : Option Fault → String
  | none => "ok"
  | some f => f.code.word

/-- The refusal in an answer, if it is one. -/
def Answer.fault? : Answer α → Option Fault
  | .ok _ => none
  | .error f => some f

/-- The word for the end of a request to a cache. -/
def CacheCall.ending : (c : CacheCall) → c.Reply → String
  | get _, .ok (some _) => "hit"
  | get _, .ok none => "miss"
  | deletePattern _, .ok n => Decimal.nat n
  | set _ _ _, .ok _ | delete _, .ok _ => "ok"
  | _, .error _ => "error"

/-- The word for the end of a request. -/
def Call.ending? : (c : Call) → c.Reply → Option String
  | ledger c, r => some (Fault.ending (c.fault? r))
  | reservations _, r => some (Fault.ending (Answer.fault? r))
  | cache c, r => some (c.ending r)
  | findExpiredWithin _ _ _, some r => some (Fault.ending (Answer.fault? r))
  | _, _ => none

def Call.subject? : Call → Option String
  | ledger c => some c.subject
  | reservations c => some c.subject
  | cache c => some c.subject
  | findExpiredWithin _ t limit => some (ReservationCall.findExpired t limit).subject
  | _ => none

/-- The line for a request and its reply. -/
def Call.line? (c : Call) (r : c.Reply) : Option String := do
  let method ← c.method?
  let subject ← c.subject?
  let ending ← c.ending? r
  some (method ++ " " ++ subject ++ " -> " ++ ending)

end StockLedger
