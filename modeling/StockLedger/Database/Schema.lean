import StockLedger.Database.Statement
import StockLedger.Stock.Reservation

/-!
# The tables of the ledger

* `Database.ColumnDef`, `TableDef`, `IndexDef` : definitions of columns, tables and indexes;
* `Database.stockItems`, `Database.reservations` : the two tables;
* `Database.schema` : the statement that makes what does not exist yet.
-/

namespace StockLedger
namespace Database

/-! ## Definitions -/

/-- A column and what its values must satisfy. -/
structure ColumnDef where
  name : String
  type : String
  primary : Bool := false
  notNull : Bool := true
  references : Option (String × String) := none
  unique : Bool := false
  default : Option Term := none
  check : Option Condition := none
deriving DecidableEq, Repr

/-- A table and what its rows must satisfy. -/
structure TableDef where
  name : String
  columns : List ColumnDef
  checks : List (String × Condition) := []
deriving DecidableEq, Repr

/-- An index over expressions, perhaps of chosen rows only. -/
structure IndexDef where
  name : String
  table : String
  keys : List Term
  where_ : Option Condition := none
deriving DecidableEq, Repr

def checkText (c : Condition) : String :=
  "CHECK (" ++ c.text ++ ")"

def ColumnDef.text (c : ColumnDef) : String :=
  " ".intercalate ([c.name, c.type] ++ (if c.primary then ["PRIMARY KEY"] else []) ++
    (if c.notNull && !c.primary then ["NOT NULL"] else []) ++
    (c.references.map fun (t, k) => "REFERENCES " ++ t ++ " (" ++ k ++ ") ON DELETE CASCADE").toList
    ++ (if c.unique then ["UNIQUE"] else []) ++
    (c.default.map fun t => "DEFAULT " ++ t.text).toList ++ (c.check.map checkText).toList)

def TableDef.text (t : TableDef) : String :=
  "CREATE TABLE IF NOT EXISTS " ++ t.name ++ " ( " ++
    commas (t.columns.map ColumnDef.text ++
      t.checks.map fun (n, c) => "CONSTRAINT " ++ n ++ " " ++ checkText c) ++ " );"

/-- A key of an index; one that is not a column stands in parentheses. -/
def keyText : Term → String
  | .column name => name
  | t => "(" ++ t.text ++ ")"

def IndexDef.text (i : IndexDef) : String :=
  "CREATE INDEX IF NOT EXISTS " ++ i.name ++ " ON " ++ i.table ++ " (" ++
    commas (i.keys.map keyText) ++ ")" ++ clause "WHERE" (i.where_.map (·.text)).toList ++ ";"

/-! ## The tables -/

/-- A check that a column has at least a value. -/
def atLeast (column : String) (n : Nat) : Condition :=
  .compare .ge (.column column) (.number n)

def stockItems : TableDef :=
  { name := "stock_items"
    columns := [
      { name := "id", type := "UUID", primary := true },
      { name := "product_id", type := "UUID", unique := true },
      { name := "quantity", type := "BIGINT", check := some (atLeast "quantity" 0) },
      { name := "reserved", type := "BIGINT", default := some (.number 0)
        check := some (atLeast "reserved" 0) },
      { name := "version", type := "BIGINT", default := some (.number 1) },
      { name := "created_at", type := "TIMESTAMPTZ", default := some .now },
      { name := "updated_at", type := "TIMESTAMPTZ", default := some .now }]
    checks := [("stock_items_reserved_within_quantity",
      .compare .le (.column "reserved") (.column "quantity"))] }

/-- A check that a column has more than a value. -/
def moreThan (column : String) (n : Nat) : Condition :=
  .compare .gt (.column column) (.number n)

def reservations : TableDef :=
  { name := "reservations"
    columns := [
      { name := "id", type := "UUID", primary := true },
      { name := "inventory_item_id", type := "UUID", references := some ("stock_items", "id") },
      { name := "order_id", type := "UUID", unique := true },
      { name := "quantity", type := "BIGINT", check := some (moreThan "quantity" 0) },
      { name := "status", type := "TEXT"
        check := some (.oneOf (.column "status") (Reservation.Status.all.map (·.word))) },
      { name := "expires_at", type := "TIMESTAMPTZ" },
      { name := "created_at", type := "TIMESTAMPTZ", default := some .now },
      { name := "updated_at", type := "TIMESTAMPTZ", default := some .now }] }

def indexes : List IndexDef :=
  [{ name := "stock_items_available_idx", table := "stock_items"
     keys := [.minus (.column "quantity") (.column "reserved")] },
    { name := "reservations_pending_expiry_idx", table := "reservations"
      keys := [.column "expires_at"]
      where_ := some (.compare .eq (.column "status") (.literal Reservation.Status.pending.word)) },
    { name := "reservations_item_idx", table := "reservations"
      keys := [.column "inventory_item_id", .column "created_at"] },
    { name := "reservations_status_idx", table := "reservations", keys := [.column "status"] }]

/-- Makes the tables and the indexes that do not exist yet. -/
def schema : Statement :=
  let (ofItems, ofReservations) := indexes.partition fun i => i.table == stockItems.name
  .define (" ".intercalate ([stockItems.text] ++ ofItems.map IndexDef.text ++
    [reservations.text] ++ ofReservations.map IndexDef.text))

end Database
end StockLedger
