/-!
# JSON values

* `Json.Text` : a string, or the raw spelling of one whose escapes denote no characters;
* `Json` : a value;
* `Json.field?`, `Json.items` : look-up in objects and arrays.

Whole numbers are kept as numbers. A number with a fraction, an exponent or a signed zero is kept
as it is spelled, since nothing here computes with one.
-/

namespace StockLedger

namespace Json

/-- A string as it was read: its characters, or the spelling of one that has none. -/
inductive Text
  | proper (s : String)
  | garbled (raw : String)
deriving DecidableEq, Repr

instance : Coe String Text := ⟨.proper⟩

/-- The string, if there is one. -/
def Text.string? : Text → Option String
  | .proper s => some s
  | .garbled _ => none

end Json

/-- A JSON value; the fields of an object stand in the order in which they were written. -/
inductive Json
  | null
  | bool (b : Bool)
  | integer (n : Int)
  | decimal (numeral : String)
  | text (t : Json.Text)
  | array (items : List Json)
  | object (fields : List (Json.Text × Json))
deriving Repr

namespace Json

instance : Inhabited Json := ⟨.null⟩

/-- A string as a value. -/
def str (s : String) : Json := .text s

/-- A value or `null`. -/
def optional (f : α → Json) : Option α → Json
  | some a => f a
  | none => .null

/-- An object with the given fields. -/
def obj (fields : List (String × Json)) : Json :=
  .object (fields.map fun (k, v) => (.proper k, v))

/-- An array with the given items. -/
def list (f : α → Json) (xs : List α) : Json :=
  .array (xs.map f)

/-! ## Look-up -/

/-- The first field with the given name. -/
def field? (name : String) : Json → Option Json
  | .object fields => (fields.find? fun (k, _) => k == .proper name).map Prod.snd
  | _ => none

def string? : Json → Option String
  | .text t => t.string?
  | _ => none

def integer? : Json → Option Int
  | .integer n => some n
  | _ => none

def bool? : Json → Option Bool
  | .bool b => some b
  | _ => none

def items : Json → List Json
  | .array xs => xs
  | _ => []

def isNull : Json → Bool
  | .null => true
  | _ => false

end Json
end StockLedger
