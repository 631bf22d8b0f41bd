import WorkspaceLint.Text.Search

/-!
# The exported class of a source text

The name in the first declaration `export class Name` or `export abstract class Name` of a text. This looks at characters only:
a declaration in a comment counts, and so does one whose first word is the end of a longer one.
-/

namespace WorkspaceLint.Source

/-- A character of a class name: a Latin letter, a digit or an underscore. -/
def isNameChar (c : Char) : Bool := c.isAlphanum || c == '_'

/-- The name in a class declaration that starts where the text does. -/
def exportedClassHere? (s : List Char) : Option (List Char) := do
  let s ← Text.afterBlanks? (← Text.afterLiteral? "export".toList s)
  let s := ((Text.afterLiteral? "abstract".toList s).bind Text.afterBlanks?).getD s
  let s ← Text.afterBlanks? (← Text.afterLiteral? "class".toList s)
  let name := s.takeWhile isNameChar
  if name = [] then none else some name

/-- The name in the first class declaration of a text. -/
def exportedClass? (s : List Char) : Option (List Char) := Text.firstMatch? exportedClassHere? s

/-- The name in the first class declaration of a source. -/
def exportedClassOf? (source : String) : Option String := (exportedClass? source.toList).map String.ofList

end WorkspaceLint.Source
