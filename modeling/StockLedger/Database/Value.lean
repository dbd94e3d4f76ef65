import StockLedger.Identity.Basic
import StockLedger.Time.Timestamp

/-!
# Values of a database

* `Database.Value` : what is sent with a statement and what a row holds;
* `Database.microsOf`, `Database.instantOf?` : instants as the database counts them;
* `Database.Row` : named values;
* `Database.Trouble` : why a statement gave no usable answer, with its wording;
* `Database.Row.uuid`, `int`, `text`, `bool`, `instant` : the value of a column, of the right type.
-/

namespace StockLedger
namespace Database

/-! ## Values -/

/-- A value. An instant is a count of microseconds since the start of the year 2000. -/
inductive Value
  | null
  | uuid (u : Uuid)
  | uuids (us : List Uuid)
  | int8 (n : Int)
  | int4 (n : Int)
  | text (s : String)
  | bool (b : Bool)
  | instant (micros : Int)
deriving DecidableEq, Repr

/-- The start of the year 2000 in nanoseconds since 1970. -/
def epochNanos : Int := 946684800000000000

/-- Microseconds since the start of 2000, cut towards it. -/
def microsOf (t : Timestamp) : Int :=
  (t.sinceEpoch - epochNanos).tdiv 1000

/-- The instant so many microseconds after the start of 2000. -/
def instantOf? (micros : Int) : Option Timestamp :=
  Timestamp.ofNanos? (epochNanos + micros * 1000)

/-- The value of an instant. -/
def Value.ofInstant (t : Timestamp) : Value :=
  .instant (microsOf t)

/-- Named values. -/
abbrev Row : Type :=
  List (String × Value)

/-! ## Trouble -/

/-- Why a statement gave no usable answer. -/
inductive Trouble
  /-- The database refused the statement. -/
  | database (code message : String)
  /-- The connections were closed beforehand. -/
  | closed
  /-- No connection became free in time. -/
  | busy
  /-- The database could not be reached. -/
  | unreachable (reason : String)
  /-- Anything else that went wrong, in the words of the driver. -/
  | failed (words : String)
  | noRow
  | noColumn (name : String)
  | nullColumn (name : String)
  | otherType (name : String)
deriving DecidableEq, Repr

/-- The wording of a trouble. -/
def Trouble.text : Trouble → String
  | .database _ message => "error returned from database: " ++ message
  | .closed => "attempted to acquire a connection on a closed pool"
  | .busy => "pool timed out while waiting for an open connection"
  | .unreachable reason => "error communicating with database: " ++ reason
  | .failed words => words
  | .noRow => "no rows returned by a query that expected to return at least one row"
  | .noColumn name => "no column found for name: " ++ name
  | .nullColumn name =>
      "error occurred while decoding column \"" ++ name ++
        "\": unexpected null; try decoding as an \x60Option\x60"
  | .otherType name => "error occurred while decoding column \"" ++ name ++ "\": mismatched types"

/-! ## Columns -/

namespace Row

/-- The value of a column, whatever its type. -/
def value (r : Row) (name : String) : Except Trouble Value :=
  match r.lookup name with
  | some v => .ok v
  | none => .error (.noColumn name)

/-- The value of a column that a reader accepts; a missing value is told apart from a wrong one. -/
def read (accept : Value → Option α) (r : Row) (name : String) : Except Trouble α := do
  let v ← r.value name
  match v, accept v with
  | .null, _ => .error (.nullColumn name)
  | _, some a => .ok a
  | _, none => .error (.otherType name)

def uuid : Row → String → Except Trouble Uuid :=
  read fun v => match v with
    | .uuid u => some u
    | _ => none

def int : Row → String → Except Trouble Int :=
  read fun v => match v with
    | .int8 n => some n
    | _ => none

def text : Row → String → Except Trouble String :=
  read fun v => match v with
    | .text s => some s
    | _ => none

def bool : Row → String → Except Trouble Bool :=
  read fun v => match v with
    | .bool b => some b
    | _ => none

/-- An instant that can be counted but does not exist is of no usable type. -/
def instant : Row → String → Except Trouble Timestamp :=
  read fun v => match v with
    | .instant micros => instantOf? micros
    | _ => none

end Row
end Database
end StockLedger
