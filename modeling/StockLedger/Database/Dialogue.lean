import StockLedger.Database.Statement
import StockLedger.Database.Value
import StockLedger.Fault.Causes

/-!
# Dialogues with a database

A request to a store kept in a database is a dialogue: statements are sent one after another, each
decided by the replies before.

* `Database.Reply` : the rows and the count of affected rows, or a trouble;
* `Database.Dialogue` : the statements that a request sends;
* `Database.fetchAll`, `fetchOptional`, `fetchValue`, `execute` : single statements;
* `Database.Trouble.fault` : the refusal that a trouble leads to;
* `Database.Line`, `Database.Dialogue.run` : a line to a database, and a dialogue over it.
-/

namespace StockLedger
namespace Database

/-- What a statement brought about. -/
structure Result where
  rows : List Row := []
  affected : Nat := 0
deriving Repr

/-- The reply to a statement. -/
abbrev Reply : Type :=
  Except Trouble Result

/-- A statement and the values that go with it. -/
structure Sent where
  statement : Statement
  params : List Value
deriving DecidableEq, Repr

/-- Statements, each decided by the replies to those before. -/
inductive Dialogue (α : Type) where
  | done (a : α)
  | send (s : Sent) (next : Reply → Dialogue α)

namespace Dialogue

variable {α β : Type}

/-- One dialogue after another. -/
def andThen : Dialogue α → (α → Dialogue β) → Dialogue β
  | done a, f => f a
  | send s next, f => send s fun r => andThen (next r) f

instance : Monad Dialogue where
  pure := done
  bind := andThen

end Dialogue

/-! ## Troubles as refusals -/

/-- The refusal that a trouble leads to; `operation` names what was asked for. -/
def Trouble.fault (operation : String) : Trouble → Fault
  | .database code message =>
      (Fault.storage (operation ++ ": database error")).withDetail
        (Fault.entries (Fault.entry "code" code) (Fault.entry "message" message))
  | .closed => .storage (operation ++ ": pool closed")
  | .busy => .storage (operation ++ ": timed out acquiring a connection")
  | t@(.nullColumn _) | t@(.otherType _) => .corruptRecord (operation ++ ": " ++ t.text)
  | t => .storage (operation ++ ": " ++ t.text)

/-- The code with which a database refuses a second row of a unique value. -/
def uniqueViolation : String := "23505"

/-- Was a row refused because it repeats a unique value? -/
def Trouble.isDuplicate : Trouble → Bool
  | .database code _ => code == uniqueViolation
  | _ => false

/-! ## Single statements -/

/-- Sends a statement. -/
def send (statement : Statement) (params : List Value) : Dialogue Reply :=
  .send ⟨statement, params⟩ .done

/-- The rows of a statement. -/
def fetchAll (operation : String) (statement : Statement) (params : List Value) :
    Dialogue (Answer (List Row)) := do
  match ← send statement params with
  | .ok r => return .ok r.rows
  | .error t => return .error (t.fault operation)

/-- The first row of a statement, if it has one. -/
def fetchOptional (operation : String) (statement : Statement) (params : List Value) :
    Dialogue (Answer (Option Row)) := do
  let rows ← fetchAll operation statement params
  return rows.map List.head?

/-- The value that a column of the first row has; a missing row is a trouble. -/
def fetchValue (operation : String) (statement : Statement) (params : List Value)
    (column : Row → Except Trouble α) : Dialogue (Answer α) := do
  let row ← fetchOptional operation statement params
  return match row with
    | .ok (some row) => (column row).mapError (Trouble.fault operation)
    | .ok none => .error (Trouble.noRow.fault operation)
    | .error f => .error f

/-- How many rows a statement affected. -/
def execute (statement : Statement) (params : List Value) (refusal : Trouble → Fault) :
    Dialogue (Answer Nat) := do
  match ← send statement params with
  | .ok r => return .ok r.affected
  | .error t => return .error (refusal t)

/-! ## Lines -/

/-- A line to a database: nothing gets through, or replies come in order and are empty at last. -/
inductive Line
  | dead (t : Trouble)
  | scripted (replies : List Reply)

/-- A dialogue over a line: its outcome, and what was sent. -/
def Dialogue.run : Dialogue α → Line → α × List Sent
  | .done a, _ => (a, [])
  | .send _ next, .dead t => (next (.error t)).run (.dead t)
  | .send s next, .scripted replies =>
      let (a, sent) := (next (replies.headD (.ok {}))).run (.scripted replies.tail)
      (a, s :: sent)

end Database
end StockLedger
