import WorkspaceLint.Number.Decimal
import WorkspaceLint.Path
import WorkspaceLint.Text.Case

/-!
# Styles of names

Names in snake_case, PascalCase and lowerCamelCase: the snake_case form of a name, the tests for the other two, and the keys by
which files are compared. Word boundaries are seen at Latin letters and digits only; the change to lower case is the full one.
A run of capitals at the end of a name is not split: `MyNFT` becomes `my_nft`.
-/

namespace WorkspaceLint.Naming

/-- A capital Latin letter. -/
def isCapital (c : Char) : Bool := 'A' ≤ c && c ≤ 'Z'

/-- A small Latin letter. -/
def isSmall (c : Char) : Bool := 'a' ≤ c && c ≤ 'z'

/-- A Latin letter or a digit. -/
def isAlphanumeric (c : Char) : Bool := isCapital c || isSmall c || Number.isDigit c

theorem isCapital_eq_isUpper (c : Char) : isCapital c = c.isUpper := (Bool.decide_and _ _).symm

theorem isSmall_eq_isLower (c : Char) : isSmall c = c.isLower := rfl

theorem isAlphanumeric_eq_isAlphanum (c : Char) : isAlphanumeric c = c.isAlphanum := by
  rw [isAlphanumeric, isCapital_eq_isUpper]
  rfl

/-- A text with an underscore between each small letter or digit and a capital right after it. -/
def splitAtCapitals : List Char → List Char
  | a :: b :: rest =>
    if (isSmall a || Number.isDigit a) && isCapital b then a :: '_' :: splitAtCapitals (b :: rest)
    else a :: splitAtCapitals (b :: rest)
  | s => s

/-- A text with an underscore between each two capitals of which the second is followed by a small letter. -/
def splitAcronyms : List Char → List Char
  | a :: b :: c :: rest =>
    if isCapital a && isCapital b && isSmall c then a :: '_' :: splitAcronyms (b :: c :: rest)
    else a :: splitAcronyms (b :: c :: rest)
  | s => s

/-- The snake_case form of a text. -/
def snakeChars (s : List Char) : List Char := Text.lower (splitAcronyms (splitAtCapitals s))

/-- The snake_case form of a name. -/
def snakeCase (name : String) : String := String.ofList (snakeChars name.toList)

/-- Whether a text is one character of a class and then letters and digits, a line feed at its end apart. -/
def isWordAfter (first : Char → Bool) (s : List Char) : Bool :=
  match s with
  | [] => false
  | c :: rest => first c && (rest.all isAlphanumeric || (rest.getLast? == some '\n' && rest.dropLast.all isAlphanumeric))

/-- A name that starts with a capital and has letters and digits only. -/
def isPascalCase (name : String) : Bool := isWordAfter isCapital name.toList

/-- A name that starts with a small letter and has letters and digits only. -/
def isLowerCamelCase (name : String) : Bool := isWordAfter isSmall name.toList

/-- The endings of stems that mark tests. -/
def testMarkers : List (List Char) := [".spec".toList, ".test".toList]

/-- A stem without a test marker at its end; a line feed may follow the marker and stays. -/
def dropTestMarker (stem : List Char) : List Char :=
  if testMarkers.any (·.isSuffixOf stem) then stem.take (stem.length - 5)
  else if testMarkers.any fun m => (m ++ ['\n']).isSuffixOf stem then stem.take (stem.length - 6) ++ ['\n']
  else stem

/-- The stem that a file should have: its own in snake_case, without a test marker. -/
def canonicalStem (stem : String) : String := String.ofList (snakeChars (dropTestMarker stem.toList))

/-- The name that the file at a path should have, without suffix. -/
def canonicalName (path : Path) : String := canonicalStem path.stem

/-- What stems are compared by: lower case, without underscores. -/
def stemKey (stem : String) : String := String.ofList ((Text.lower stem.toList).filter (· ≠ '_'))

/-- What files are compared by when duplicates are looked for. -/
def duplicateKey (path : Path) : String := stemKey path.stem

end WorkspaceLint.Naming
