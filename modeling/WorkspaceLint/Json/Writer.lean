import WorkspaceLint.Text.Hex

/-!
# Writing JSON

Objects of texts in a list, one member to a line and two spaces deeper at each level. Characters outside ASCII are written as
they are; quotes, backslashes and control characters are escaped.
-/

namespace WorkspaceLint.Json

/-- A character between quotes. -/
def escapeChar (c : Char) : List Char :=
  if c = '\x22' then ['\\', '\x22']
  else if c = '\\' then ['\\', '\\']
  else if c = '\n' then ['\\', 'n']
  else if c = '\r' then ['\\', 'r']
  else if c = '\t' then ['\\', 't']
  else if c = '\x08' then ['\\', 'b']
  else if c = '\x0C' then ['\\', 'f']
  else if c.toNat < 0x20 then '\\' :: 'u' :: Text.hexPadded 4 c.toNat
  else [c]

/-- A text between quotes. -/
def stringLiteral (s : String) : String := String.ofList ('\x22' :: (s.toList.flatMap escapeChar ++ ['\x22']))

/-- An object of texts at the second level. -/
def objectText (members : List (String × String)) : String :=
  "  \x7b\n" ++
    ",\n".intercalate (members.map fun m => "    " ++ stringLiteral m.1 ++ ": " ++ stringLiteral m.2) ++ "\n  \x7d"

/-- A list of objects of texts. -/
def listText (objects : List (List (String × String))) : String :=
  "[\n" ++ ",\n".intercalate (objects.map objectText) ++ "\n]"

end WorkspaceLint.Json
