import WorkspaceLint.Number.Limit
import WorkspaceLint.Number.Shortest
import WorkspaceLint.Text.Quoted
import WorkspaceLint.Value.Basic

/-!
# Values as text

How a value stands in a message. A text that stands alone is written as it is; inside a list or map it is quoted. Truth values
and the empty value are written `True`, `False` and `None`. A value with a whole number of too many digits in it cannot be written
(`isWritable`).
-/

namespace WorkspaceLint.Value

/-- An octet in a literal of octets with the given quote. -/
def octetLiteral (quote : Char) (b : UInt8) : List Char :=
  let c := Char.ofNat b.toNat
  if c = quote ∨ c = '\\' then ['\\', c]
  else if c = '\n' then ['\\', 'n']
  else if c = '\r' then ['\\', 'r']
  else if c = '\t' then ['\\', 't']
  else if 32 ≤ b.toNat ∧ b.toNat < 127 then [c]
  else '\\' :: 'x' :: Text.hexPadded 2 b.toNat

/-- Octets as a literal. -/
def octetsLiteral (bytes : List UInt8) : String :=
  let quote := Text.quoteMark (bytes.map fun b => Char.ofNat b.toNat)
  String.ofList ('b' :: quote :: (bytes.flatMap (octetLiteral quote) ++ [quote]))

mutual

/-- A value as it stands inside a list or map. -/
def literal : Value → String
  | .null => "None"
  | .bool true => "True"
  | .bool false => "False"
  | .int n => toString n
  | .float x => x.text
  | .text s => Text.quoted s
  | .list items => "[" ++ ", ".intercalate (literals items) ++ "]"
  | .map entries => "\x7b" ++ ", ".intercalate (entryLiterals entries) ++ "\x7d"
  | .day d => d.literal
  | .moment t => t.literal
  | .octets bytes => octetsLiteral bytes
  | .set [] => "set()"
  | .set (item :: items) => "\x7b" ++ ", ".intercalate (literals (item :: items)) ++ "\x7d"
  | .pair key item => "(" ++ literal key ++ ", " ++ literal item ++ ")"

/-- The literals of values in a row. -/
def literals : List Value → List String
  | [] => []
  | v :: rest => literal v :: literals rest

/-- The literals of entries of a map. -/
def entryLiterals : List (Value × Value) → List String
  | [] => []
  | (k, v) :: rest => (literal k ++ ": " ++ literal v) :: entryLiterals rest

end

mutual

/-- Whether no whole number in a value has too many digits to be written. -/
def isWritable : Value → Bool
  | .int n => Number.isWritable n
  | .list items => areWritable items
  | .map entries => entriesAreWritable entries
  | .set items => areWritable items
  | .pair key item => isWritable key && isWritable item
  | _ => true

/-- Whether that is so of values in a row. -/
def areWritable : List Value → Bool
  | [] => true
  | v :: rest => isWritable v && areWritable rest

/-- Whether that is so of the keys and the values of entries of a map. -/
def entriesAreWritable : List (Value × Value) → Bool
  | [] => true
  | (k, v) :: rest => isWritable k && isWritable v && entriesAreWritable rest

end

/-- A value as it stands alone in a message. -/
def asText : Value → String
  | .text s => s
  | .day d => d.text
  | .moment t => t.text
  | v => v.literal

end WorkspaceLint.Value
