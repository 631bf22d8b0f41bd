import WorkspaceLint.Number.Numeral
import WorkspaceLint.Value.Moment

/-!
# What makes a text no YAML document

A text that breaks the grammar, names what is not there, or gives a value a tag that does not fit is malformed, and nothing more
is said. The other causes are met only while scalars are turned into values. A node that lies inside itself has no value here, and
is refused under a name of its own.
-/

namespace WorkspaceLint.Yaml

/-- Why a text is no document. -/
inductive Error where
  /-- The text breaks the grammar, or a tag does not fit. -/
  | malformed
  /-- A name stands for a node inside that node. -/
  | insideItself
  /-- A number of a code point is above the greatest one. -/
  | codePointTooGreat
  /-- A number of a code point is no signed number of thirty-two bits. -/
  | codePointTooWide
  /-- A scalar is no numeral. -/
  | numeral (e : Number.NumeralError)
  /-- A scalar that should be a number is empty. -/
  | emptyNumber
  /-- A power of sixty is past the greatest fraction. -/
  | unitTooGreat
  /-- A scalar is no truth value. -/
  | notTruthValue (text : String)
  /-- A scalar is neither a day nor a moment. -/
  | notMoment
  /-- A map that has a default should be a day or a moment. -/
  | notTextMoment
  /-- A day or moment is out of range. -/
  | moment (e : MomentError)
deriving DecidableEq

/-- The message for a cause. -/
def Error.message : Error → String
  | .malformed => "malformed document"
  | .insideItself => "a node may not lie inside itself"
  | .codePointTooGreat => "chr() arg not in range(0x110000)"
  | .codePointTooWide => "Python int too large to convert to C int"
  | .numeral e => e.message
  | .emptyNumber => "string index out of range"
  | .unitTooGreat => "int too large to convert to float"
  | .notTruthValue text => Text.quoted text
  | .notMoment => "'NoneType' object has no attribute 'groupdict'"
  | .notTextMoment => "expected string or bytes-like object, got 'list'"
  | .moment e => e.message

end WorkspaceLint.Yaml
