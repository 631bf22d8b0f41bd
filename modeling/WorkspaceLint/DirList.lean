import WorkspaceLint.Text.Blank

/-!
# Lists of directories

Names of directories in one text, with commas between them. Blanks around a name do not count, and empty names are passed over.
-/

namespace WorkspaceLint

/-- The names in a text. -/
def splitNames (s : List Char) : List (List Char) := ((s.splitOn ',').map Text.strip).filter (· ≠ [])

/-- The directories in a text. -/
def parseDirList (raw : String) : List String := (splitNames raw.toList).map String.ofList

end WorkspaceLint
