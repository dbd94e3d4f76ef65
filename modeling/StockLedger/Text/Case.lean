/-!
# Words for names

A name such as `ItemNotFound` is written without blanks, with a capital at the front of each part.

* `Text.snakeCase` : the name in small letters, as in `item_not_found`;
* `Text.screamingSnakeCase` : the name in capitals, as in `ITEM_NOT_FOUND`.
-/

namespace StockLedger
namespace Text

/-- Puts a line before each capital. -/
def parted : List Char → List Char
  | [] => []
  | c :: cs => if c.isUpper then '_' :: c :: parted cs else c :: parted cs

/-- A name in small letters, with a line before each capital but the first letter. -/
def snakeCase (name : String) : String :=
  match name.toList with
  | [] => ""
  | c :: cs => .ofList ((c :: parted cs).map Char.toLower)

/-- A name in capitals, with a line before each capital but the first letter. -/
def screamingSnakeCase (name : String) : String :=
  .ofList ((snakeCase name).toList.map Char.toUpper)

end Text
end StockLedger
