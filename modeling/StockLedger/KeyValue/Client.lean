import StockLedger.KeyValue.Reply

/-!
# Clients of a key-value server

A client sends a command, waits for the reply and decides by it how to go on. It may never end, so
it is given by its states rather than by a tree of commands.

* `KeyValue.Command` : the commands, and `Command.words` how they are sent;
* `KeyValue.Client` : states, what is done in each, and the state after a reply;
* `KeyValue.Client.run` : a client over replies that come in order;
* `KeyValue.Host`, `KeyValue.Host.serve` : what answers at an address, and a client with it.
-/

namespace StockLedger
namespace KeyValue

/-! ## Commands -/

/-- A command to a server. -/
inductive Command
  | get (key : String)
  | set (key value : String) (seconds : Nat)
  | del (keys : List String)
  | scan (cursor : UInt64) (pattern : String)
  | publish (channel payload : String)
deriving DecidableEq, Repr

/-- How many keys a page of a walk should have. -/
def pageSize : Nat := 200

/-- A command as it is sent: its name and its arguments. -/
def Command.words : Command → List String
  | .get key => ["GET", key]
  | .set key value seconds => ["SET", key, value, "EX", Decimal.nat seconds]
  | .del keys => "DEL" :: keys
  | .scan cursor pattern =>
      ["SCAN", Decimal.nat cursor.toNat, "MATCH", pattern, "COUNT", Decimal.nat pageSize]
  | .publish channel payload => ["PUBLISH", channel, payload]

/-! ## Clients -/

/-- What a client does: it has ended, or it sends a command. -/
inductive Turn (α : Type)
  | ended (a : α)
  | send (c : Command)

/-- A client: where it starts, what it does in a state, and the state after a reply. -/
structure Client (α : Type) where
  State : Type
  start : State
  turn : State → Turn α
  hear : State → Reply → State

namespace Client

variable {α : Type}

/-- A client that has ended. -/
def ended (a : α) : Client α :=
  { State := Unit, start := (), turn := fun _ => .ended a, hear := fun s _ => s }

/-- A client that sends one command. -/
def single (c : Command) (read : Reply → α) : Client α where
  State := Option α
  start := none
  turn
    | none => .send c
    | some a => .ended a
  hear _ r := some (read r)

/-- A client over replies: its outcome, unless it waits for another reply, and what was sent. -/
def runFrom (k : Client α) (s : k.State) (replies : List Reply) : Option α × List Command :=
  match k.turn s, replies with
  | .ended a, _ => (some a, [])
  | .send c, [] => (none, [c])
  | .send c, r :: rs =>
      let (a, sent) := k.runFrom (k.hear s r) rs
      (a, c :: sent)
termination_by structural replies

/-- A client over replies, from its start. -/
def run (k : Client α) (replies : List Reply) : Option α × List Command :=
  k.runFrom k.start replies

end Client

/-! ## Hosts -/

/-- What answers at an address: nothing, for a reason, or replies that come in order. -/
inductive Host
  | unreachable (reason : Place → String)
  | scripted (replies : List Reply)

/-- A client with the host of an address; `refuse` is its outcome if there is no connection. -/
def Host.serve {α : Type} (h : Host) (address : String) (refuse : Trouble → α) (k : Client α) :
    Option α × List Command :=
  match Address.ofString address with
  | .error why => (some (refuse (.badAddress why)), [])
  | .ok a =>
      match h with
      | .unreachable reason => (some (refuse (.unreachable (reason a.place))), [])
      | .scripted replies => k.run replies

end KeyValue
end StockLedger
