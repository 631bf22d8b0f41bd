import WorkspaceLint.Text.Blank

/-!
# Looking for a declaration in a text

Small readers over lists of characters: each gives the rest of the text after what it reads, or nothing. `firstMatch?` tries a
reader at every position, from the left.
-/

namespace WorkspaceLint.Text

/-- The rest of a text after a literal. -/
def afterLiteral? (literal : List Char) (s : List Char) : Option (List Char) :=
  if literal.isPrefixOf s then some (s.drop literal.length) else none

/-- The rest of a text after one or more blanks, all of them. -/
def afterBlanks? : List Char → Option (List Char)
  | [] => none
  | c :: rest => if isBlank c then some (rest.dropWhile isBlank) else none

/-- What a reader gives at the first position where it gives something. -/
def firstMatch? {α : Type} (read : List Char → Option α) : List Char → Option α
  | [] => read []
  | c :: rest =>
    match read (c :: rest) with
    | some a => some a
    | none => firstMatch? read rest

end WorkspaceLint.Text
