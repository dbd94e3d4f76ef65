import StockLedger.Identity.Basic
import StockLedger.Text.Decimal

/-!
# Keys of cached stock

An item is cached under its identity and under its product; a list of scarce items is cached under
the threshold and the limit that were asked for.

* `CacheKey.item`, `CacheKey.product`, `CacheKey.lowStock` : the keys;
* `CacheKey.allLowStock` : the pattern of every key of a list.
-/

namespace StockLedger
namespace CacheKey

def item (id : ItemId) : String :=
  "item:id:" ++ id.text

def product (productId : ProductId) : String :=
  "item:product:" ++ productId.text

def lowStock (threshold : Int) (limit : UInt64) : String :=
  "lowstock:" ++ Decimal.int threshold ++ ":" ++ Decimal.nat limit.toNat

def allLowStock : String :=
  "lowstock:*"

end CacheKey
end StockLedger
