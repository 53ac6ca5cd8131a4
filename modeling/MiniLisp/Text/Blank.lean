import MiniLisp.Text.CodePoint

/-!
Blank characters: what separates words in source text and what is trimmed from a setting.
-/

namespace MiniLisp.Text

def blankRanges : Ranges := [
  (0x0009, 0x000D), (0x001C, 0x0020), (0x0085, 0x0085), (0x00A0, 0x00A0), (0x1680, 0x1680),
  (0x2000, 0x200A), (0x2028, 0x2029), (0x202F, 0x202F), (0x205F, 0x205F), (0x3000, 0x3000)
]

/-- A blank is a space, a line or paragraph break, or one of the separating controls. -/
def isBlank (c : Char) : Bool := blankRanges.contains c

def trimBlanks (cs : List Char) : List Char :=
  ((cs.dropWhile isBlank).reverse.dropWhile isBlank).reverse

end MiniLisp.Text
