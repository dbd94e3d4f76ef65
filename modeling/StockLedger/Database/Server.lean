import StockLedger.Database.Dialogue
import StockLedger.Database.Schema
import StockLedger.Wire.Signed

/-!
# A server

What a database does with a statement, over one table that refers to no other.

* `Database.Scope` : what a term is computed from besides the columns of a row;
* `Database.Term.value`, `Database.Condition.value` : terms, and conditions in the three truth
  values of SQL;
* `Database.divide`, `sortRows`, `cut`, `project` : the clauses of a statement;
* `Database.TableDef.vet` : what a new row must satisfy beside the other rows;
* `Database.Server.execute` : the reply to a statement, and the rows after it;
* `Database.Dialogue.Held` : a whole dialogue with a server.

A statement that is refused leaves the rows as they are. No order of the stored rows is promised:
between two statements they may have moved.
-/

namespace StockLedger
namespace Database

/-! ## Refusals -/

def noOperator : Trouble :=
  .database "42883" "operator does not exist"

def noSuchColumn (name : String) : Trouble :=
  .database "42703" ("column " ++ name ++ " does not exist")

def noSuchTable (name : String) : Trouble :=
  .database "42P01" ("relation " ++ name ++ " does not exist")

/-- A statement needs other values than were sent along. -/
def wrongParams : Trouble :=
  .database "08P01" "bind message supplies other parameters than the statement requires"

def integerOutOfRange : Trouble :=
  .database "22003" "bigint out of range"

def instantOutOfRange : Trouble :=
  .database "22008" "timestamp out of range"

def negativeLimit : Trouble :=
  .database "2201W" "LIMIT must not be negative"

def typeMismatch (name : String) : Trouble :=
  .database "42804" ("column " ++ name ++ " is of another type")

def missingValue (name : String) : Trouble :=
  .database "23502" ("null value in column " ++ name)

def checkViolation : Trouble :=
  .database "23514" "new row violates check constraint"

def repeatedValue : Trouble :=
  .database uniqueViolation "duplicate key value violates unique constraint"

/-! ## Terms -/

/-- The instant at which a statement runs, and the values sent along. -/
structure Scope where
  now : Timestamp
  params : List Value

/-- The value in a place; the first place is 1. -/
def Scope.param (x : Scope) : Nat → Except Trouble Value
  | 0 => .error wrongParams
  | n + 1 => (x.params[n]?).elim (.error wrongParams) .ok

/-- A stored value. -/
def Row.column (r : Row) (name : String) : Except Trouble Value :=
  (r.lookup name).elim (.error (noSuchColumn name)) .ok

/-- A number of 64 bits with a sign. -/
def int8? (n : Int) : Except Trouble Value :=
  if -signBit ≤ n ∧ n < signBit then .ok (.int8 n) else .error integerOutOfRange

/-- Arithmetic on numbers; what is computed from a missing value is missing. -/
def Value.combine (f : Int → Int → Int) : Value → Value → Except Trouble Value
  | .int8 a, .int8 b => int8? (f a b)
  | .null, .int8 _ | .int8 _, .null | .null, .null => .ok .null
  | _, _ => .error noOperator

def Term.value (x : Scope) (r : Row) : Term → Except Trouble Value
  | .column name => r.column name
  | .param place => x.param place
  | .number n => int8? n
  | .literal s => .ok (.text s)
  | .minus a b => do (← a.value x r).combine (· - ·) (← b.value x r)
  | .plus a b => do (← a.value x r).combine (· + ·) (← b.value x r)
  | .now => .ok (.ofInstant x.now)

/-! ## Conditions -/

/-- The order of two values of one type; texts go by their characters. -/
def Value.order? : Value → Value → Option Ordering
  | .uuid a, .uuid b => some (a.compare b)
  | .int8 a, .int8 b => some (compare a b)
  | .text a, .text b => some (compare a b)
  | .bool a, .bool b => some (compare a b)
  | .instant a, .instant b => some (compare a b)
  | _, _ => none

def Comparison.holds : Comparison → Ordering → Bool
  | .eq, o => o.isEq
  | .lt, o => o.isLT
  | .le, o => o.isLE
  | .ge, o => o.isGE
  | .gt, o => o.isGT

/-- A comparison with a missing value is neither true nor false. -/
def Comparison.test (op : Comparison) : Value → Value → Except Trouble (Option Bool)
  | .null, _ | _, .null => .ok none
  | a, b => (a.order? b).elim (.error noOperator) fun o => .ok (some (op.holds o))

/-- Is a value among others that were sent together? -/
def Value.isAmong : Value → Value → Except Trouble (Option Bool)
  | .null, _ | _, .null => .ok none
  | .uuid u, .uuids us => .ok (some (us.contains u))
  | _, _ => .error noOperator

/-- Is a value one of some texts? -/
def Value.isOneOf (texts : List String) : Value → Except Trouble (Option Bool)
  | .null => .ok none
  | .text s => .ok (some (texts.contains s))
  | _ => .error noOperator

/-- Conjunction, where `none` is the truth value in between. -/
def both : Option Bool → Option Bool → Option Bool
  | some false, _ | _, some false => some false
  | some true, some true => some true
  | _, _ => none

/-- Disjunction, where `none` is the truth value in between. -/
def either : Option Bool → Option Bool → Option Bool
  | some true, _ | _, some true => some true
  | some false, some false => some false
  | _, _ => none

def Condition.value (x : Scope) (r : Row) : Condition → Except Trouble (Option Bool)
  | .compare op a b => do op.test (← a.value x r) (← b.value x r)
  | .and p q => do return both (← p.value x r) (← q.value x r)
  | .or p q => do return either (← p.value x r) (← q.value x r)
  | .isNullText place => do return some (decide ((← x.param place) = .null))
  | .among a place => do (← a.value x r).isAmong (← x.param place)
  | .oneOf a texts => do (← a.value x r).isOneOf texts

/-! ## Clauses -/

/-- The rows for which a condition is true, and the others. -/
def divide (x : Scope) (c : Condition) : List Row → Except Trouble (List Row × List Row)
  | [] => .ok ([], [])
  | r :: rows => do
      let v ← c.value x r
      let (picked, others) ← divide x c rows
      return if v = some true then (r :: picked, others) else (picked, r :: others)

/-- The order of values in a sorted column: missing values come last. -/
def Value.rank : Value → Value → Ordering
  | .null, .null => .eq
  | .null, _ => .gt
  | _, .null => .lt
  | a, b => (a.order? b).getD .eq

/-- Are the keys of one row at most those of another? The first that differ decide. -/
def keysAtMost : List Value → List Value → Bool
  | a :: as, b :: bs => (a.rank b).isLT || ((a.rank b).isEq && keysAtMost as bs)
  | _, _ => true

/-- The rows in ascending order of their keys. -/
def sortRows (x : Scope) (order : List Term) (rows : List Row) : Except Trouble (List Row) := do
  let keyed ← rows.mapM fun r => return (← order.mapM (Term.value x r), r)
  return (keyed.mergeSort fun a b => keysAtMost a.1 b.1).map Prod.snd

/-- No more rows than a number in some place; a missing number is no limit. -/
def cut (x : Scope) (rows : List Row) : Option Nat → Except Trouble (List Row)
  | none => .ok rows
  | some place => do
      match ← x.param place with
      | .null => return rows
      | .int8 n => if n < 0 then throw negativeLimit else return rows.take n.toNat
      | _ => throw noOperator

/-- Some columns of a row. -/
def project (columns : List String) (r : Row) : Except Trouble Row :=
  columns.mapM fun name => return (name, ← r.column name)

/-- Some columns of the rows that were changed; without columns no rows are given. -/
def returned (columns : List String) (rows : List Row) : Except Trouble (List Row) :=
  if columns.isEmpty then .ok [] else rows.mapM (project columns)

/-- A result of one value. -/
def Result.single (name : String) (v : Value) : Result :=
  { rows := [[(name, v)]], affected := 1 }

/-! ## New rows -/

/-- Is a value that is not missing of the type of a column? -/
def ColumnDef.accepts (c : ColumnDef) : Value → Bool
  | .uuid _ => c.type == "UUID"
  | .int8 _ => c.type == "BIGINT"
  | .text _ => c.type == "TEXT"
  | .instant _ => c.type == "TIMESTAMPTZ"
  | _ => false

def ColumnDef.vet (c : ColumnDef) (v : Value) : Except Trouble Unit :=
  if v = .null then
    if c.primary || c.notNull then .error (missingValue c.name) else .ok ()
  else if c.accepts v then
    .ok ()
  else
    .error (typeMismatch c.name)

/-- Does a row repeat the value that another row has in a column without repetitions? -/
def ColumnDef.repeats (c : ColumnDef) (r other : Row) : Bool :=
  (c.primary || c.unique) && r.lookup c.name != some .null && r.lookup c.name == other.lookup c.name

/-- Does a row repeat what another row has? -/
def TableDef.repeats (t : TableDef) (r other : Row) : Bool :=
  t.columns.any fun c => c.repeats r other

/-- All checks of the rows of a table. -/
def TableDef.conditions (t : TableDef) : List Condition :=
  t.columns.filterMap ColumnDef.check ++ t.checks.map Prod.snd

/-- A check is passed unless it is false. -/
def enforce (x : Scope) (r : Row) (c : Condition) : Except Trouble Unit := do
  if (← c.value x r) = some false then throw checkViolation

/-- A new row beside others: its values, then its checks, then the values it must not repeat. -/
def TableDef.vet (t : TableDef) (x : Scope) (others : List Row) (r : Row) :
    Except Trouble Unit := do
  t.columns.forM fun c => do c.vet (← r.column c.name)
  t.conditions.forM (enforce x r)
  if others.any (t.repeats r) then throw repeatedValue

/-- Are these columns of the table? -/
def TableDef.expect (t : TableDef) (names : List String) : Except Trouble Unit :=
  match names.find? fun name => !(t.columns.map ColumnDef.name).contains name with
  | some name => .error (noSuchColumn name)
  | none => .ok ()

/-- A row of the values sent along; the other columns have their defaults. -/
def TableDef.compose (t : TableDef) (x : Scope) (columns : List String) : Except Trouble Row := do
  if x.params.length ≠ columns.length then throw wrongParams
  t.columns.mapM fun c => do
    match (columns.zip x.params).lookup c.name, c.default with
    | some v, _ => return (c.name, v)
    | none, some d => return (c.name, ← d.value x [])
    | none, none => return (c.name, .null)

/-- A row with new values, computed from the old ones. -/
def revise (x : Scope) (sets : List (String × Term)) (r : Row) : Except Trouble Row :=
  r.mapM fun (name, v) =>
    (((sets.lookup name).map (Term.value x r)).getD (.ok v)).map fun w => (name, w)

/-- The picked rows with new values, each vetted beside all the others. -/
def TableDef.overwrite (t : TableDef) (x : Scope) (sets : List (String × Term)) :
    (others picked : List Row) → Except Trouble (List Row)
  | _, [] => .ok []
  | others, r :: rest => do
      let revised ← revise x sets r
      t.vet x (others ++ rest) revised
      return revised :: (← t.overwrite x sets (revised :: others) rest)

/-! ## Statements -/

/-- The table that a statement is about. -/
def Statement.target? : Statement → Option String
  | .select _ table _ _ _ | .count table _ | .present table _ | .insert table _
  | .update table _ _ _ | .delete table _ _ => some table
  | .define _ => none

/-- A server with one table. -/
structure Server where
  table : TableDef
  /-- Which counts of microseconds are those of an instant that a column can hold. -/
  keeps : Int → Bool

namespace Server

/-- Can a value be received? -/
def receives (S : Server) : Value → Bool
  | .instant micros => S.keeps micros
  | _ => true

/-- What a statement brings about, and the rows after it. -/
def carryOut (S : Server) (x : Scope) (rows : List Row) :
    Statement → Except Trouble (Result × List Row)
  | .select columns _ where_ order limit => do
      let (picked, _) ← divide x where_ rows
      let found ← cut x (← sortRows x order picked) limit
      return (⟨← found.mapM (project columns), found.length⟩, rows)
  -- No table is so large that its count leaves the 64 bits of a number.
  | .count _ none => return (.single "total" (.int8 rows.length), rows)
  | .count _ (some where_) => do
      let (picked, _) ← divide x where_ rows
      return (.single "total" (.int8 picked.length), rows)
  | .present _ where_ => do
      let (picked, _) ← divide x where_ rows
      return (.single "present" (.bool !picked.isEmpty), rows)
  | .insert _ columns => do
      S.table.expect columns
      let r ← S.table.compose x columns
      S.table.vet x rows r
      return (⟨[], 1⟩, r :: rows)
  | .update _ sets where_ returning => do
      S.table.expect (sets.map Prod.fst)
      let (picked, others) ← divide x where_ rows
      let written ← S.table.overwrite x sets others picked
      return (⟨← returned returning written, written.length⟩, written ++ others)
  | .delete _ where_ returning => do
      let (picked, others) ← divide x where_ rows
      return (⟨← returned returning picked, picked.length⟩, others)
  | .define _ => return ({}, rows)

/-- A statement with what is looked at before it is carried out. -/
def attempt (S : Server) (now : Timestamp) (rows : List Row) (s : Sent) :
    Except Trouble (Result × List Row) := do
  if (s.statement.target?.getD S.table.name) ≠ S.table.name then
    throw (noSuchTable (s.statement.target?.getD ""))
  if s.params.any fun v => !S.receives v then throw instantOutOfRange
  S.carryOut ⟨now, s.params⟩ rows s.statement

/-- The reply to a statement, and the rows after it. -/
def execute (S : Server) (now : Timestamp) (rows : List Row) (s : Sent) : Reply × List Row :=
  match S.attempt now rows s with
  | .ok (result, after) => (.ok result, after)
  | .error t => (.error t, rows)

end Server

/-! ## Dialogues -/

/-- A dialogue with a server, from the rows before it to its outcome and the rows after it. -/
inductive Dialogue.Held {α : Type} (S : Server) (now : Timestamp) :
    Dialogue α → List Row → α → List Row → Prop
  | done (a : α) (rows : List Row) : Held S now (.done a) rows a rows
  | send (s : Sent) (next : Reply → Dialogue α) (rows moved : List Row) (a : α)
      (after : List Row) (hmoved : moved.Perm rows)
      (hrest : Held S now (next (S.execute now moved s).1) (S.execute now moved s).2 a after) :
      Held S now (.send s next) rows a after

end Database
end StockLedger
