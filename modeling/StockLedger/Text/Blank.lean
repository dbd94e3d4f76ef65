/-!
# Blank characters

The characters with the property White_Space, and the texts that are cut free of them.

* `isBlank` : the property, as a table of code points;
* `skipBlanks` : a text without the blanks in front;
* `trimBlanks` : a text without the blanks at either end.
-/

namespace StockLedger

/-- The code points with the property White_Space. -/
def isBlank (c : Char) : Bool :=
  let n := c.toNat
  (9 ≤ n && n ≤ 13) || n == 0x20 || n == 0x85 || n == 0xA0 || n == 0x1680 ||
    (0x2000 ≤ n && n ≤ 0x200A) || n == 0x2028 || n == 0x2029 || n == 0x202F ||
    n == 0x205F || n == 0x3000

/-- What remains of a text once the blanks in front are gone. -/
def skipBlanks (cs : List Char) : List Char :=
  cs.dropWhile isBlank

/-- What remains of a text once the blanks at both ends are gone. -/
def trimBlanks (cs : List Char) : List Char :=
  ((skipBlanks cs).reverse.dropWhile isBlank).reverse

end StockLedger
