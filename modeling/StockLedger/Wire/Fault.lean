import StockLedger.Json.Printer
import StockLedger.Json.Reader
import StockLedger.Wire.Leaf

/-!
# Faults in JSON

A fault is an object with `code` and `message`, and `detail` when it has one.

* `Fault.json`, `Fault.ofJson?` : between faults and JSON;
* `Fault.encode`, `Fault.decode?` : between faults and text.
-/

namespace StockLedger
namespace Fault

def json (f : Fault) : Json :=
  .obj ([("code", f.code.json), ("message", .str f.message)] ++
    (f.detail.map fun d => ("detail", Json.str d)).toList)

/-- The names of the fields; a missing detail is no detail. -/
def names : List (String × Option Json) :=
  [("code", none), ("message", none), ("detail", some .null)]

def ofJson? (j : Json) : Option Fault :=
  match j.record? names with
  | some [code, message, detail] => do
      let code ← Code.ofJson? code
      let message ← message.string?
      let detail ← detail.optionalString?
      some { code, message, detail }
  | _ => none

/-- A fault as text. -/
def encode (f : Fault) : String :=
  f.json.print

/-- The fault that a text spells. -/
def decode? (s : String) : Option Fault :=
  (Json.ofString? s).bind ofJson?

end Fault
end StockLedger
