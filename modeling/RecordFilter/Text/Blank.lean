/-
# Blanks

Blank characters: the ones a lexer skips between words and a reader of dates and numbers skips
around them.
-/

namespace RecordFilter.Text

/-- The 25 characters of the Unicode property `White_Space`. -/
def isBlank (c : Char) : Bool :=
  let n := c.toNat
  (9 ≤ n && n ≤ 13) || n == 0x20 || n == 0x85 || n == 0xA0 || n == 0x1680 ||
    (0x2000 ≤ n && n ≤ 0x200A) || n == 0x2028 || n == 0x2029 || n == 0x202F || n == 0x205F ||
    n == 0x3000

/-- The text from its first character that is not blank. -/
def trimLeft (text : List Char) : List Char :=
  text.dropWhile isBlank

/-- The text without blanks at either end. -/
def trim (text : List Char) : List Char :=
  (trimLeft (trimLeft text).reverse).reverse

end RecordFilter.Text
