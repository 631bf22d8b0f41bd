/-!
# Characters and their places

A document as a list of characters, each with the line, the column and the offset at which it stands, and a null character at
its end. Indentation is read off the columns, so nothing has to count while the text is taken apart. A byte order mark takes no
column.
-/

namespace WorkspaceLint.Yaml

/-- A character and where it stands. -/
structure Placed where
  /-- The character. -/
  char : Char
  /-- The number of lines before. -/
  line : Nat
  /-- The number of characters before it in its line. -/
  column : Nat
  /-- The number of characters before. -/
  offset : Nat

/-- The character that ends a document. -/
def endMark : Char := '\x00'

/-- A character that ends a line. -/
def isBreak (c : Char) : Bool := c == '\n' || c == '\x85' || c == '\u2028' || c == '\u2029'

/-- A character that ends a line, or the end of the document. -/
def isLineEnd (c : Char) : Bool := isBreak c || c == endMark

/-- A space or the end of a line. -/
def isSpaceOrEnd (c : Char) : Bool := c == ' ' || isLineEnd c

/-- A space, a tab or the end of a line. -/
def isBlankOrEnd (c : Char) : Bool := c == '\t' || isSpaceOrEnd c

/-- A space or a tab. -/
def isBlank (c : Char) : Bool := c == ' ' || c == '\t'

/-- What a break stands for in a scalar. -/
def breakChar (c : Char) : Char := if c = '\x85' then '\n' else c

/-- The characters of a text from a place on, with their places, and the end mark. -/
def placeFrom (line column offset : Nat) : List Char → List Placed
  | [] => [⟨endMark, line, column, offset⟩]
  | c :: rest =>
    ⟨c, line, column, offset⟩ ::
      if isBreak c then placeFrom (line + 1) 0 (offset + 1) rest
      else placeFrom line (if c = '\uFEFF' then column else column + 1) (offset + 1) rest

/-- The characters of a text with their places. -/
def place (text : List Char) : List Placed := placeFrom 0 0 0 text

/-- The next character, which is the end mark when none is left. -/
def next (s : List Placed) : Char := (s.head?.map (·.char)).getD endMark

/-- The character after as many characters as given. -/
def ahead (n : Nat) (s : List Placed) : Char := next (s.drop n)

/-- The column of the next character. -/
def column (s : List Placed) : Nat := (s.head?.map (·.column)).getD 0

/-- A text without its places. -/
def chars (s : List Placed) : List Char := s.map (·.char)

/-- A text split before the first character that does not pass a test. -/
def span (test : Char → Bool) (s : List Placed) : List Char × List Placed :=
  (chars (s.takeWhile fun p => test p.char), s.dropWhile fun p => test p.char)

/-- Whether a text starts with a mark of three characters that stands alone. -/
def startsMark (mark : List Char) (s : List Placed) : Bool := chars (s.take 3) == mark && isBlankOrEnd (ahead 3 s)

/-- Whether a text starts with the mark that starts a document. -/
def startsDocumentStart (s : List Placed) : Bool := startsMark ['-', '-', '-'] s

/-- Whether a text starts with the mark that ends a document. -/
def startsDocumentEnd (s : List Placed) : Bool := startsMark ['.', '.', '.'] s

/-- Whether a text starts with one of the two marks. -/
def startsDocumentMark (s : List Placed) : Bool := startsDocumentStart s || startsDocumentEnd s

end WorkspaceLint.Yaml
