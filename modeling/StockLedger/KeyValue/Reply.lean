import StockLedger.KeyValue.Address

/-!
# Replies of a key-value server

* `KeyValue.Reply` : what a server says to a command;
* `KeyValue.Trouble` : why there is no usable reply, with its wording;
* `KeyValue.Reply.text?`, `count`, `cursor`, `keys`, `page` : the value of a reply, of the right
  type.
-/

namespace StockLedger
namespace KeyValue

/-- What a server says to a command. -/
inductive Reply
  | nil
  | status (word : String)
  | bulk (text : String)
  | int (n : Int)
  | array (items : List Reply)
  | error (line : String)
deriving Repr

/-! ## Trouble -/

/-- Why there is no usable reply. -/
inductive Trouble
  | badAddress (why : AddressFault)
  | unreachable (reason : String)
  /-- The server refused the command. -/
  | refused (line : String)
  /-- The reply is of another type. -/
  | otherType
deriving DecidableEq, Repr

/-- The wording of a refusal, by its first word and the rest of the line, if there is one. -/
def refusalText (word : String) (rest : Option String) : String :=
  if word = "ERR" then
    match rest with
    | some text => "An error was signalled by the server - ResponseError: " ++ text
    | none => "An error was signalled by the server- ResponseError"
  else
    word ++ ": " ++ rest.getD "Unknown extension error encountered"

/-- The wording of a trouble. -/
def Trouble.text : Trouble → String
  | .badAddress why => why.message ++ "- InvalidClientConfig"
  | .unreachable reason => reason
  | .refused line =>
      let (word, rest) := line.toList.span (· != ' ')
      refusalText (String.ofList word) (rest.tail?.map String.ofList)
  | .otherType => "Response was of incompatible type- TypeError"

namespace Reply

/-! ## Values -/

/-- A text, or nothing. -/
def text? : Reply → Except Trouble (Option String)
  | .nil => .ok none
  | .status s | .bulk s => .ok (some s)
  | .error line => .error (.refused line)
  | .int _ | .array _ => .error .otherType

/-- A number of 64 bits with a sign. -/
def count : Reply → Except Trouble Int
  | .int n => .ok n
  | .status s | .bulk s => (word? s.toList).elim (.error .otherType) .ok
  | .error line => .error (.refused line)
  | .nil | .array _ => .error .otherType

/-- A place in a walk over all keys. -/
def cursor : Reply → Except Trouble UInt64
  | .int n => .ok (.ofInt n)
  | .status s | .bulk s => (place? s.toList).elim (.error .otherType) .ok
  | .error line => .error (.refused line)
  | .nil | .array _ => .error .otherType

/-- One key. -/
def key : Reply → Except Trouble String
  | .status s | .bulk s => .ok s
  | .error line => .error (.refused line)
  | .nil | .int _ | .array _ => .error .otherType

/-- A list of keys; a text alone is a list of one. -/
def keys : Reply → Except Trouble (List String)
  | .nil => .ok []
  | .bulk k => .ok [k]
  | .array items => items.mapM key
  | .error line => .error (.refused line)
  | .status _ | .int _ => .error .otherType

/-- A page of a walk: where the next one is, and the keys of this one. -/
def page : Reply → Except Trouble (UInt64 × List String)
  | .array [next, found] => do
      let next ← next.cursor
      let found ← found.keys
      return (next, found)
  | .error line => .error (.refused line)
  | _ => .error .otherType

/-- Anything but a refusal. -/
def accepted : Reply → Except Trouble Unit
  | .error line => .error (.refused line)
  | _ => .ok ()

end Reply
end KeyValue
end StockLedger
