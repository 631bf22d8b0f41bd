import WorkspaceLint.Text.Ranges

/-!
# Blank characters

The characters that stand for blank space, and the removal of blanks at both ends of a text. The set is the one of the Unicode
bidirectional classes WS, B and S together with the space separators: it holds the four information separators, the next line
control and the ideographic space, and not the zero width space.
-/

namespace WorkspaceLint.Text

/-- The code points of blank characters. -/
def blankRanges : Ranges :=
  [(0x9, 0xD), (0x1C, 0x20), (0x85, 0x85), (0xA0, 0xA0), (0x1680, 0x1680), (0x2000, 0x200A), (0x2028, 0x2029),
   (0x202F, 0x202F), (0x205F, 0x205F), (0x3000, 0x3000)]

/-- A character that stands for blank space. -/
def isBlank (c : Char) : Bool := blankRanges.contains c

/-- A text without the characters of a class before its first and after its last character of another. -/
def stripWhere (test : Char → Bool) (s : List Char) : List Char :=
  ((s.dropWhile test).reverse.dropWhile test).reverse

/-- A text without the blanks before its first and after its last character that is not blank. -/
def strip (s : List Char) : List Char := stripWhere isBlank s

/-- A blank that may stand around a number: one with the Unicode property White_Space, which the four information separators
lack. -/
def isWhiteSpace (c : Char) : Bool := isBlank c && !('\x1C' ≤ c && c ≤ '\x1F')

end WorkspaceLint.Text
