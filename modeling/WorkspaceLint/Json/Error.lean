import WorkspaceLint.Text.Lines

/-!
# What makes a text no JSON

The causes for which a text is refused, the place they are reported at, and their wording. An integer of more than 4300 digits
is refused too, with no place.
-/

namespace WorkspaceLint.Json

/-- Why a text is no JSON. -/
inductive Fault where
  /-- The text starts with a byte order mark. -/
  | byteOrderMark
  /-- A value should stand here. -/
  | value
  /-- A key between quotes should stand here. -/
  | key
  /-- A colon should stand here. -/
  | colon
  /-- A comma or the end of the list or map should stand here. -/
  | comma
  /-- The value is over and more text follows. -/
  | extra
  /-- The text between quotes that starts here has no end. -/
  | unterminated
  /-- A control character stands between quotes. -/
  | controlCharacter
  /-- A backslash is followed by a character that it cannot stand before. -/
  | escape
  /-- The letter `u` after a backslash is not followed by four digits of base sixteen. -/
  | codeEscape
deriving DecidableEq

/-- The wording of a fault. -/
def Fault.message : Fault → String
  | .byteOrderMark => "Unexpected UTF-8 BOM (decode using utf-8-sig)"
  | .value => "Expecting value"
  | .key => "Expecting property name enclosed in double quotes"
  | .colon => "Expecting ':' delimiter"
  | .comma => "Expecting ',' delimiter"
  | .extra => "Extra data"
  | .unterminated => "Unterminated string starting at"
  | .controlCharacter => "Invalid control character at"
  | .escape => "Invalid \\escape"
  | .codeEscape => "Invalid \\uXXXX escape"

/-- A fault and the place it is reported at. -/
structure Malformed where
  /-- The fault. -/
  fault : Fault
  /-- The line, from one. -/
  line : Nat
  /-- The column, from one. -/
  column : Nat
  /-- The number of characters before. -/
  offset : Nat
deriving DecidableEq

/-- The message for a fault at a place. -/
def Malformed.message (m : Malformed) : String :=
  m.fault.message ++ ": line " ++ toString m.line ++ " column " ++ toString m.column ++ " (char " ++
    toString m.offset ++ ")"

/-- Why a text was not read. -/
inductive Error where
  /-- The text is no JSON. -/
  | malformed (m : Malformed)
  /-- An integer has too many digits. -/
  | integerTooLong (digits : Nat)
deriving DecidableEq

/-- A fault at an offset of a text. -/
def Error.at (text : List Char) (fault : Fault) (offset : Nat) : Error :=
  .malformed ⟨fault, Text.lineOf text offset, Text.columnOf text offset, offset⟩

end WorkspaceLint.Json
