import StockLedger.Text.Decimal

/-!
# Statements

The part of SQL in which the ledger is kept.

* `Database.Term`, `Database.Condition` : what rows are computed, ordered and chosen by;
* `Database.Statement` : the statements;
* `Database.Statement.text` : a statement as it is sent, with single blanks.
-/

namespace StockLedger
namespace Database

/-- A value computed for a row. -/
inductive Term
  | column (name : String)
  /-- A value sent with the statement; the first has place 1. -/
  | param (place : Nat)
  | number (n : Nat)
  | literal (s : String)
  | minus (a b : Term)
  | plus (a b : Term)
  | now
deriving DecidableEq, Repr

/-- How two values compare. -/
inductive Comparison
  | eq
  | lt
  | le
  | ge
  | gt
deriving DecidableEq, Repr

/-- A test of a row. -/
inductive Condition
  | compare (op : Comparison) (a b : Term)
  | and (p q : Condition)
  | or (p q : Condition)
  /-- A text sent with the statement is missing. -/
  | isNullText (place : Nat)
  /-- A value is among those sent together. -/
  | among (a : Term) (place : Nat)
  /-- A value is one of some texts. -/
  | oneOf (a : Term) (texts : List String)
deriving DecidableEq, Repr

/-- A statement. -/
inductive Statement
  /-- Columns of the chosen rows, in ascending order, perhaps no more than a number sent along. -/
  | select (columns : List String) (table : String) (where_ : Condition) (order : List Term)
      (limit : Option Nat)
  /-- How many rows are chosen, as `total`. -/
  | count (table : String) (where_ : Option Condition)
  /-- Whether any row is chosen, as `present`. -/
  | present (table : String) (where_ : Condition)
  /-- A new row with the values sent along. -/
  | insert (table : String) (columns : List String)
  /-- New values for the chosen rows, and columns of them afterwards. -/
  | update (table : String) (sets : List (String × Term)) (where_ : Condition)
      (returning : List String)
  /-- Removes the chosen rows and gives columns of them. -/
  | delete (table : String) (where_ : Condition) (returning : List String)
  /-- Definitions of tables and indexes. -/
  | define (text : String)
deriving DecidableEq, Repr

/-! ## Text -/

/-- Parts with commas between them. -/
def commas (parts : List String) : String :=
  ", ".intercalate parts

/-- A text in a statement. -/
def quoted (s : String) : String :=
  "'" ++ s ++ "'"

def Term.text : Term → String
  | .column name => name
  | .param i => "$" ++ Decimal.nat i
  | .number n => Decimal.nat n
  | .literal s => quoted s
  | .minus a b => a.text ++ " - " ++ b.text
  | .plus a b => a.text ++ " + " ++ b.text
  | .now => "NOW()"

def Comparison.text : Comparison → String
  | .eq => "="
  | .lt => "<"
  | .le => "<="
  | .ge => ">="
  | .gt => ">"

def Condition.text : Condition → String
  | .compare op a b => a.text ++ " " ++ op.text ++ " " ++ b.text
  | .and p q => p.text ++ " AND " ++ q.text
  | .or p q => "(" ++ p.text ++ " OR " ++ q.text ++ ")"
  | .isNullText i => "$" ++ Decimal.nat i ++ "::TEXT IS NULL"
  | .among a i => a.text ++ " = ANY($" ++ Decimal.nat i ++ ")"
  | .oneOf a texts => a.text ++ " IN (" ++ commas (texts.map quoted) ++ ")"

/-- A clause, unless there is nothing in it. -/
def clause (word : String) (parts : List String) : String :=
  if parts.isEmpty then "" else " " ++ word ++ " " ++ commas parts

/-- The statement as it is sent. -/
def Statement.text : Statement → String
  | .select columns table where_ order limit =>
      "SELECT " ++ commas columns ++ " FROM " ++ table ++ " WHERE " ++ where_.text ++
        clause "ORDER BY" (order.map fun t => t.text ++ " ASC") ++
        clause "LIMIT" (limit.map fun n => (Term.param n).text).toList
  | .count table where_ =>
      "SELECT COUNT(*) AS total FROM " ++ table ++ clause "WHERE" (where_.map (·.text)).toList
  | .present table where_ =>
      "SELECT EXISTS(SELECT 1 FROM " ++ table ++ " WHERE " ++ where_.text ++ ") AS present"
  | .insert table columns =>
      "INSERT INTO " ++ table ++ " ( " ++ commas columns ++ " ) VALUES (" ++
        commas (columns.zipIdx.map fun (_, i) => (Term.param (i + 1)).text) ++ ")"
  | .update table sets where_ returning =>
      "UPDATE " ++ table ++ " SET " ++ commas (sets.map fun (c, t) => c ++ " = " ++ t.text) ++
        " WHERE " ++ where_.text ++ clause "RETURNING" returning
  | .delete table where_ returning =>
      "DELETE FROM " ++ table ++ " WHERE " ++ where_.text ++ clause "RETURNING" returning
  | .define text => text

/-! ## Shorthand -/

/-- A column equals a value sent along. -/
def Condition.is (column : String) (place : Nat) : Condition :=
  .compare .eq (.column column) (.param place)

end Database
end StockLedger
