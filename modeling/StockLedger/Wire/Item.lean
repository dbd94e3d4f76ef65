import StockLedger.Json.Printer
import StockLedger.Json.Reader
import StockLedger.Stock.Item
import StockLedger.Wire.Leaf
import StockLedger.Wire.Signed

/-!
# Stored stock items

* `ItemRow` : the values of a stored item, which need not be those of any item;
* `ItemRow.ofItem`, `ItemRow.toItem` : between items and rows;
* `ItemRow.json`, `ItemRow.ofJson?` : between rows and JSON;
* `StockItem.encode`, `StockItem.decode?` : between items and text.

A row keeps the version as a signed number of 64 bits, so the upper half of the versions turns
negative and is refused when it is read back.
-/

namespace StockLedger

/-- The values of a stored item. -/
structure ItemRow where
  id : ItemId
  productId : ProductId
  quantity : Int
  reserved : Int
  version : Int
  createdAt : Timestamp
  updatedAt : Timestamp
deriving DecidableEq, Repr

namespace ItemRow

/-! ## Items -/

def ofItem (s : StockItem) : ItemRow :=
  { id := s.id, productId := s.productId, quantity := s.quantity, reserved := s.reserved
    version := signed64 s.version, createdAt := s.createdAt, updatedAt := s.updatedAt }

/-- The item of a row: the version is looked at first, then the counts. -/
def toItem (r : ItemRow) : Answer StockItem :=
  if r.version < 0 then
    .error ((Fault.corruptRecord "negative stock item version").withDetail
      (Fault.entries (Fault.entry "item" r.id.text)
        (Fault.entry "version" (Decimal.int r.version))))
  else
    StockItem.restore r.id r.productId r.quantity r.reserved (.ofNat r.version.toNat)
      r.createdAt r.updatedAt

/-! ## JSON -/

/-- The names of the fields, in order. -/
def names : List String :=
  ["id", "product_id", "quantity", "reserved", "version", "created_at", "updated_at"]

def json (r : ItemRow) : Json :=
  .obj [("id", r.id.uuid.json), ("product_id", r.productId.uuid.json),
    ("quantity", .integer r.quantity), ("reserved", .integer r.reserved),
    ("version", .integer r.version), ("created_at", r.createdAt.json),
    ("updated_at", r.updatedAt.json)]

def ofJson? (j : Json) : Option ItemRow :=
  match j.recordOf? names with
  | some [id, productId, quantity, reserved, version, createdAt, updatedAt] => do
      let id ← Uuid.ofJson? id
      let productId ← Uuid.ofJson? productId
      let quantity ← quantity.int64?
      let reserved ← reserved.int64?
      let version ← version.int64?
      let createdAt ← Timestamp.ofJson? createdAt
      let updatedAt ← Timestamp.ofJson? updatedAt
      some { id := ⟨id⟩, productId := ⟨productId⟩, quantity, reserved, version, createdAt
             updatedAt }
  | _ => none

/-- The row that a text spells. -/
def ofString? (s : String) : Option ItemRow :=
  (Json.ofString? s).bind ofJson?

end ItemRow

namespace StockItem

/-! ## Text -/

/-- An item as text. -/
def encode (s : StockItem) : String :=
  (ItemRow.ofItem s).json.print

/-- The item that a text spells; `none` also when the row it spells is not that of an item. -/
def decode? (s : String) : Option StockItem :=
  (ItemRow.ofString? s).bind fun r => r.toItem.toOption

/-- A list of items as text. -/
def encodeAll (xs : List StockItem) : String :=
  (Json.list (fun s => (ItemRow.ofItem s).json) xs).print

/-- The items that a text spells, if it spells nothing else. -/
def decodeAll? (s : String) : Option (List StockItem) :=
  match Json.ofString? s with
  | some (.array xs) => xs.mapM fun j => (ItemRow.ofJson? j).bind fun r => r.toItem.toOption
  | _ => none

end StockItem
end StockLedger
