import StockLedger.Service.Basic

/-!
# Keeping stock

* `Service.createItem` : opens the ledger for a product;
* `Service.addStock`, `Service.removeStock` : receives units, and writes off unclaimed ones.
-/

namespace StockLedger
namespace Service

/-- Opens the ledger for a product. -/
def createItem (v : Service) (productId : ProductId) (units : Int) : Request StockItem := do
  let id ← freshUuid
  let t ← now
  let s ← Request.ofAnswer (StockItem.create ⟨id⟩ productId units t)
  Request.ofProgram (v.ledger (.save s))
  log .info "stock item created"
  return s

/-- Changes the item of a product. -/
def changeStock (v : Service) (change : StockItem.Change) (message : String)
    (productId : ProductId) (units : Int) : Request StockItem := do
  let s ← v.itemOf productId
  let s ← Request.ofAnswer (s.apply change units)
  let s ← v.write s
  log .info message
  return s

/-- Receives units. -/
def addStock (v : Service) : ProductId → Int → Request StockItem :=
  v.changeStock .add "stock added"

/-- Writes off units that nobody has claimed. -/
def removeStock (v : Service) : ProductId → Int → Request StockItem :=
  v.changeStock .decrement "stock removed"

end Service
end StockLedger
