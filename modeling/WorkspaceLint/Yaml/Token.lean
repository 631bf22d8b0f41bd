import WorkspaceLint.Text.Utf8
import WorkspaceLint.Yaml.Error
import WorkspaceLint.Yaml.Placed
import WorkspaceLint.Yaml.Scalar.Block

/-!
# Tokens

The parts of a document that a parse looks at: marks and directives, the starts and ends of collections, and what nodes are made
of. Directives, anchors, aliases and tags are read here too.
-/

namespace WorkspaceLint.Yaml

/-- A tag as it is written: a handle, when there is one, and the text after it. -/
structure WrittenTag where
  /-- The handle, with its exclamation marks. -/
  handle : Option String
  /-- The text after the handle. -/
  suffix : String
deriving DecidableEq

/-- A part of a document. -/
inductive Token where
  /-- A directive that gives the major number of a version. -/
  | versionDirective (major : Nat)
  /-- A directive that gives a handle its meaning. -/
  | tagDirective (handle meaning : String)
  /-- A directive that means nothing here. -/
  | otherDirective
  /-- The mark that starts a document. -/
  | documentStart
  /-- The mark that ends a document. -/
  | documentEnd
  /-- The end of the text. -/
  | streamEnd
  /-- The start of a list by indentation. -/
  | blockListStart
  /-- The start of a map by indentation. -/
  | blockMapStart
  /-- The end of a list or map by indentation. -/
  | blockEnd
  /-- An opening bracket. -/
  | listStart
  /-- A closing bracket. -/
  | listEnd
  /-- An opening brace. -/
  | mapStart
  /-- A closing brace. -/
  | mapEnd
  /-- The start of a key. -/
  | key
  /-- The start of a value. -/
  | value
  /-- The start of an item of a list by indentation. -/
  | item
  /-- A comma. -/
  | comma
  /-- A name that stands for a node before. -/
  | alias (name : String)
  /-- A name for the node that follows. -/
  | anchor (name : String)
  /-- A tag for the node that follows. -/
  | tag (written : WrittenTag)
  /-- A scalar, and whether it is plain. -/
  | scalar (isPlain : Bool) (text : String)
deriving DecidableEq

/-- A character of a name. -/
def isNameChar (c : Char) : Bool := c.isAlphanum || c == '-' || c == '_'

/-- A character that may follow the name of an anchor or alias. -/
def endsAnchor (c : Char) : Bool := isBlankOrEnd c || "?:,]%@".toList.contains c || c == '\x7d' || c == '\x60'

/-- The name after the sign of an anchor or alias, and the rest. -/
def anchorName (s : List Placed) : Except Error (String × List Placed) :=
  let (name, rest) := span isNameChar s
  if name ≠ [] ∧ endsAnchor (next rest) then .ok (String.ofList name, rest) else .error .malformed

/-- A character of the address of a tag. -/
def isAddressChar (c : Char) : Bool := c.isAlphanum || "-;/?:@&=+$,_.!~*()[]".toList.contains c || c == '\x27'

/-- The octets of characters that are written by percent signs, and the rest. -/
def percentOctets : List Placed → Except Error (List UInt8 × List Placed)
  | p :: a :: b :: rest =>
    if p.char = '%' then
      match Text.hexNumber? [a.char, b.char] with
      | some n => (percentOctets rest).map fun (octets, rest) => (UInt8.ofNat n :: octets, rest)
      | none => .error .malformed
    else .ok ([], p :: a :: b :: rest)
  | s => if next s = '%' then .error .malformed else .ok ([], s)

/-- The characters of the address of a tag, and the rest. The bound is on the number of runs. -/
def addressFrom : Nat → List Placed → Except Error (List Char × List Placed)
  | 0, s => .ok ([], s)
  | bound + 1, s =>
    let (run, rest) := span isAddressChar s
    if next rest = '%' then do
      let (octets, rest) ← percentOctets rest
      match Text.decode octets with
      | .error _ => throw .malformed
      | .ok written =>
        let (more, rest) ← addressFrom bound rest
        return (run ++ written ++ more, rest)
    else .ok (run, rest)

/-- The address of a tag, and the rest. -/
def address (s : List Placed) : Except Error (String × List Placed) :=
  if isAddressChar (next s) ∨ next s = '%' then
    (addressFrom s.length s).map fun (read, rest) => (String.ofList read, rest)
  else .error .malformed

/-- The handle of a tag, which starts with an exclamation mark and ends with one unless a space follows the first, and the
rest. -/
def tagHandle (s : List Placed) : Except Error (String × List Placed) :=
  if next s ≠ '!' then .error .malformed
  else if ahead 1 s = ' ' then .ok ("!", s.drop 1)
  else
    let (name, rest) := span isNameChar (s.drop 1)
    if next rest = '!' then .ok (String.ofList ('!' :: name ++ ['!']), rest.drop 1) else .error .malformed

/-- The tag that a text starts with, without a look at what follows it, and the rest. -/
def tagHere (s : List Placed) : Except Error (WrittenTag × List Placed) := do
  let c := ahead 1 s
  if c = '<' then
    let (suffix, rest) ← address (s.drop 2)
    if next rest = '>' then return (⟨none, suffix⟩, rest.drop 1) else throw .malformed
  else if isBlankOrEnd c then return (⟨none, "!"⟩, s.drop 1)
  else
    let word := (span (!isSpaceOrEnd ·) (s.drop 1)).1
    let (handle, rest) ← if word.contains '!' then tagHandle s else pure ("!", s.drop 1)
    let (suffix, rest) ← address rest
    return (⟨some handle, suffix⟩, rest)

/-- The tag that a text starts with, and the rest. -/
def tagToken (s : List Placed) : Except Error (Token × List Placed) := do
  let (written, rest) ← tagHere s
  if isSpaceOrEnd (next rest) then return (.tag written, rest) else throw .malformed

/-- The number that a text starts with, and the rest. -/
def versionNumber (s : List Placed) : Except Error (Nat × List Placed) :=
  let (digits, rest) := span Number.isDigit s
  if digits = [] then .error .malformed
  else if Number.maxDigits < digits.length then .error (.numeral (.tooLong digits.length))
  else .ok (Number.ofDecimalDigits digits, rest)

/-- The version after the name of its directive, and the rest. -/
def versionDirective (s : List Placed) : Except Error (Token × List Placed) := do
  let (major, rest) ← versionNumber (span (· == ' ') s).2
  if next rest ≠ '.' then throw .malformed
  let (_, rest) ← versionNumber (rest.drop 1)
  if isSpaceOrEnd (next rest) then return (.versionDirective major, rest) else throw .malformed

/-- The handle and its meaning after the name of their directive, and the rest. -/
def tagDirective (s : List Placed) : Except Error (Token × List Placed) := do
  let (handle, rest) ← tagHandle (span (· == ' ') s).2
  if next rest ≠ ' ' then throw .malformed
  let (meaning, rest) ← address (span (· == ' ') rest).2
  if isSpaceOrEnd (next rest) then return (.tagDirective handle meaning, rest) else throw .malformed

/-- The directive that a text starts with, and the rest after its line. -/
def directive (s : List Placed) : Except Error (Token × List Placed) := do
  let (name, rest) := span isNameChar (s.drop 1)
  if name = [] ∨ !isSpaceOrEnd (next rest) then throw .malformed
  let (token, rest) ←
    if name = "YAML".toList then versionDirective rest
    else if name = "TAG".toList then tagDirective rest
    else pure (.otherDirective, (span (!isLineEnd ·) rest).2)
  return (token, ← ignoredLine rest)

end WorkspaceLint.Yaml
