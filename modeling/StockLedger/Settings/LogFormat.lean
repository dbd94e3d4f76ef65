import StockLedger.Text.Blank

/-!
# Formats of the log

* `LogFormat` : the two formats;
* `LogFormat.ofWord?` : the format that a word asks for, blanks and case aside;
* `LogFormat.choose` : the format of a setting that may be unset or unknown.
-/

namespace StockLedger

/-- How the log is written. -/
inductive LogFormat
  | json
  | text
deriving DecidableEq, Repr

namespace LogFormat

def word : LogFormat → String
  | .json => "json"
  | .text => "text"

/-- The format that a word asks for; the two ways of writing text are one format. -/
def ofWord? (word : String) : Option LogFormat :=
  let w := String.ofList ((trimBlanks word.toList).map Char.toLower)
  if w = "json" then some .json
  else if w = "text" ∨ w = "pretty" ∨ w = "compact" then some .text
  else none

/-- The format of a setting, or the default. -/
def choose (default : LogFormat) (setting : Option String) : LogFormat :=
  (setting.bind ofWord?).getD default

end LogFormat
end StockLedger
