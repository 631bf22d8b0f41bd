import WorkspaceLint.Text.Hex
import WorkspaceLint.Text.PrintableTable

/-!
# Quoted text

A text between quotes, on one line and with nothing invisible in it: the form in which names and paths stand in messages. The
quotes are single ones unless the text holds a single quote and no double one.
-/

namespace WorkspaceLint.Text

/-- The quote that a text is written between. -/
def quoteMark (s : List Char) : Char :=
  if s.contains '\x27' && !s.contains '\x22' then '\x22' else '\x27'

/-- A code point by number, with as many digits as its size asks for. -/
def escapeCode (n : Nat) : List Char :=
  if n < 0x100 then '\\' :: 'x' :: hexPadded 2 n
  else if n < 0x10000 then '\\' :: 'u' :: hexPadded 4 n
  else '\\' :: 'U' :: hexPadded 8 n

/-- A character between quotes of the given kind. -/
def quotedChar (quote c : Char) : List Char :=
  if c = quote ∨ c = '\\' then ['\\', c]
  else if c = '\n' then ['\\', 'n']
  else if c = '\r' then ['\\', 'r']
  else if c = '\t' then ['\\', 't']
  else if isPrintable c then [c]
  else escapeCode c.toNat

/-- A text between quotes. -/
def quotedChars (s : List Char) : List Char :=
  quoteMark s :: (s.flatMap (quotedChar (quoteMark s)) ++ [quoteMark s])

/-- A string between quotes. -/
def quoted (s : String) : String := String.ofList (quotedChars s.toList)

/-- A list of strings, each between quotes, in brackets. -/
def quotedList (items : List String) : String := "[" ++ ", ".intercalate (items.map quoted) ++ "]"

end WorkspaceLint.Text
