import StockLedger.Database.Dialogue
import StockLedger.Database.Schema
import StockLedger.Memory.Ledger
import StockLedger.Wire.Item

/-!
# A ledger in a database

* `Database.readItem` : the item of a row;
* `DatabaseLedger.dialogue` : the dialogue for each request to a ledger.

Every request is one statement, but for a conditional write that wrote nothing: a second statement
tells a missing row from a lost race.
-/

namespace StockLedger
namespace Database

/-! ## Rows -/

/-- The stored values in a row; the first column that cannot be read is reported. -/
def itemRow (r : Row) : Except Trouble ItemRow := do
  let id ← r.uuid "id"
  let productId ← r.uuid "product_id"
  let quantity ← r.int "quantity"
  let reserved ← r.int "reserved"
  let version ← r.int "version"
  let createdAt ← r.instant "created_at"
  let updatedAt ← r.instant "updated_at"
  return { id := ⟨id⟩, productId := ⟨productId⟩, quantity, reserved, version, createdAt
           updatedAt }

/-- The item of a row. -/
def readItem (r : Row) : Answer StockItem :=
  match itemRow r with
  | .ok row => row.toItem
  | .error t => .error (.corruptRecord ("failed to decode stock item row: " ++ t.text))

/-- The values of an item, in the order of its columns. -/
def itemValues (s : StockItem) : List Value :=
  let r := ItemRow.ofItem s
  [.uuid r.id.uuid, .uuid r.productId.uuid, .int8 r.quantity, .int8 r.reserved, .int8 r.version,
    .ofInstant r.createdAt, .ofInstant r.updatedAt]

/-- A limit as it is sent: 0 means no limit. -/
def limitValue (limit : UInt64) : Value :=
  if limit = 0 then .null else .int8 (signed64 limit)

/-- The version and the instant of a row that was written. -/
def readStamp (r : Row) : Answer (UInt64 × Timestamp) := do
  let version ← (r.int "version").mapError fun t =>
    Fault.corruptRecord ("failed to decode version: " ++ t.text)
  let updatedAt ← (r.instant "updated_at").mapError fun t =>
    Fault.corruptRecord ("failed to decode updated_at: " ++ t.text)
  if version < 0 then
    throw (.corruptRecord ("negative version " ++ Decimal.int version))
  else
    return (.ofNat version.toNat, updatedAt)

/-- A total that cannot be below zero. -/
def totalOf (n : Int) : UInt64 :=
  .ofNat n.toNat

end Database

namespace DatabaseLedger

open Database

/-! ## Statements -/

def table : String := stockItems.name

def columns : List String := stockItems.columns.map ColumnDef.name

/-- The items that a condition picks. -/
def selectItems (where_ : Condition) : Statement :=
  .select columns table where_ [] none

/-- Units that can still be claimed. -/
def availableTerm : Term :=
  .minus (.column "quantity") (.column "reserved")

def selectLowStock : Statement :=
  .select columns table (.compare .le availableTerm (.param 1)) [availableTerm, .column "id"]
    (some 2)

/-- The next version, and the instant of the write. -/
def stampSets : List (String × Term) :=
  [("version", .plus (.column "version") (.number 1)), ("updated_at", .now)]

/-- Writes the counts of an item if its version is the expected one. -/
def updateItem : Statement :=
  .update table ([("quantity", .param 3), ("reserved", .param 4)] ++ stampSets)
    (.and (.is "id" 1) (.is "version" 2)) ["version", "updated_at"]

def bumpItem : Statement :=
  .update table stampSets (.is "id" 1) columns

/-! ## Dialogues -/

/-- The item of the row that a statement may give. -/
def fetchItem (operation : String) (statement : Statement) (key : Uuid) (missing : Fault) :
    Dialogue (Answer StockItem) := do
  let row ← fetchOptional operation statement [.uuid key]
  return match row with
    | .ok (some row) => readItem row
    | .ok none => .error missing
    | .error f => .error f

/-- The items of the rows that a statement gives. -/
def fetchItems (operation : String) (statement : Statement) (params : List Value) :
    Dialogue (Answer (List StockItem)) := do
  let rows ← fetchAll operation statement params
  return rows.bind fun rows => rows.mapM readItem

/-- Is there an item with an identity? -/
def hasItem (id : ItemId) : Dialogue (Answer Bool) :=
  fetchValue "stock_item_exists" (.present table (.is "id" 1)) [.uuid id.uuid]
    (Row.bool · "present")

/-- Why a conditional write wrote nothing. -/
def explainMiss (s : StockItem) : Answer Bool → Fault
  | .ok true => .versionConflict (Fault.entries (MemoryLedger.aboutItem s.id)
      (Fault.entry "expected" (Decimal.nat s.version.toNat)))
  | .ok false => .itemNotFound (MemoryLedger.aboutItem s.id)
  | .error f => f

/-- A conditional write. -/
def update (s : StockItem) : Dialogue Written := do
  let row ← fetchOptional "update_stock_item" updateItem
    [.uuid s.id.uuid, .int8 (signed64 s.version), .int8 s.quantity, .int8 s.reserved]
  match row with
  | .error f => return ⟨.error f, s⟩
  | .ok none => do
      let known ← hasItem s.id
      return ⟨.error (explainMiss s known), s⟩
  | .ok (some row) =>
      match readStamp row with
      | .ok (version, updatedAt) => return ⟨.ok (), s.persisted version updatedAt⟩
      | .error f => return ⟨.error f, s⟩

/-- Stores a new item. -/
def save (s : StockItem) : Dialogue (Answer Unit) := do
  let affected ← execute (.insert table columns) (itemValues s) fun t =>
    if t.isDuplicate then MemoryLedger.duplicate s else t.fault "insert_stock_item"
  return affected.map fun _ => ()

/-- The dialogue for a request. -/
def dialogue : (c : LedgerCall) → Dialogue c.Reply
  | .load id =>
      fetchItem "load_stock_item" (selectItems (.is "id" 1)) id.uuid
        (.itemNotFound (MemoryLedger.aboutItem id))
  | .findByProduct productId =>
      fetchItem "find_stock_item_by_product" (selectItems (.is "product_id" 1)) productId.uuid
        (.productNotFound (MemoryLedger.aboutProduct productId))
  | .findMany [] => .done (.ok [])
  | .findMany ids =>
      fetchItems "find_many_stock_items" (selectItems (.among (.column "id") 1))
        [.uuids (ids.map ItemId.uuid)]
  | .findLowStock threshold limit =>
      fetchItems "find_low_stock" selectLowStock [.int8 threshold, limitValue limit]
  | .count => do
      let total ← fetchValue "count_stock_items" (.count table none) [] (Row.int · "total")
      return total.map totalOf
  | .hasProduct productId =>
      fetchValue "stock_item_exists_by_product" (.present table (.is "product_id" 1))
        [.uuid productId.uuid] (Row.bool · "present")
  | .save s => save s
  | .update s => update s
  | .delete id =>
      fetchItem "delete_stock_item" (.delete table (.is "id" 1) columns) id.uuid
        (.itemNotFound (MemoryLedger.aboutItem id))
  | .bumpVersion id =>
      fetchItem "increment_stock_item_version" bumpItem id.uuid
        (.itemNotFound (MemoryLedger.aboutItem id))

end DatabaseLedger
end StockLedger
