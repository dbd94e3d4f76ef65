/-!
# Announcing released stock

* `PublishFault` : why a notice could not be announced, with its wording.
-/

namespace StockLedger

/-- Why a notice was not announced. -/
inductive PublishFault
  | transport (reason : String)
  | serialize (reason : String)
deriving DecidableEq, Repr

/-- The wording of a failure. -/
def PublishFault.text : PublishFault → String
  | .transport reason => "event transport failed: " ++ reason
  | .serialize reason => "event could not be serialized: " ++ reason

end StockLedger
