/-
White space and trimming.

* `isWhiteSpace` — the Unicode property White_Space;
* `trimEnd`, `isBlank` — dropping it at the end of a line, and lines that hold nothing else.
-/
import Pagewright.Text.Ranges

namespace Pagewright.Text

/-- The characters of the property White_Space. -/
def whiteSpaceRanges : Ranges := [
  (0x9, 0xD), (0x20, 0x20), (0x85, 0x85), (0xA0, 0xA0), (0x1680, 0x1680),
  (0x2000, 0x200A), (0x2028, 0x2029), (0x202F, 0x202F), (0x205F, 0x205F), (0x3000, 0x3000)]

/-- Whether a character is white space. -/
def isWhiteSpace (c : Char) : Bool :=
  whiteSpaceRanges.contains c.toNat

/-- The text without the white space at its end. -/
def trimEnd (text : List Char) : List Char :=
  (text.reverse.dropWhile isWhiteSpace).reverse

/-- Whether a text holds nothing but white space. -/
def isBlank (text : List Char) : Bool :=
  text.all isWhiteSpace

end Pagewright.Text
