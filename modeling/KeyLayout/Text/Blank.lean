/-
White space, as the character property of that name has it.

* `isBlank` says whether a character is white space;
* `trim` removes white space at both ends of a text.
-/
namespace KeyLayout.Text

/-- Whether a character has the property `White_Space`: twenty-five code points do. -/
def isBlank (c : Char) : Bool :=
  let n := c.toNat
  (0x09 ≤ n && n ≤ 0x0D) || n == 0x20 || n == 0x85 || n == 0xA0 || n == 0x1680
    || (0x2000 ≤ n && n ≤ 0x200A) || n == 0x2028 || n == 0x2029 || n == 0x202F
    || n == 0x205F || n == 0x3000

/-- Removes white space at the front. -/
def trimLeft (text : List Char) : List Char := text.dropWhile isBlank

/-- Removes white space at both ends. -/
def trim (text : List Char) : List Char :=
  (trimLeft (trimLeft text).reverse).reverse

end KeyLayout.Text
