/-!
# Lines of a text

A line ends at a line feed, at a carriage return, or at the two together; `unifyNewlines` leaves the line feed only. Positions
in a text are counted in characters, and lines and columns from one.
-/

namespace WorkspaceLint.Text

/-- A text whose line ends are all written as one line feed. -/
def unifyNewlines : List Char → List Char
  | [] => []
  | '\r' :: '\n' :: rest => '\n' :: unifyNewlines rest
  | c :: rest => (if c = '\r' then '\n' else c) :: unifyNewlines rest

/-- The line, counted from one, of the character at an offset. -/
def lineOf (text : List Char) (offset : Nat) : Nat := (text.take offset).count '\n' + 1

/-- The column, counted from one, of the character at an offset. -/
def columnOf (text : List Char) (offset : Nat) : Nat :=
  ((text.take offset).reverse.takeWhile (· ≠ '\n')).length + 1

end WorkspaceLint.Text
