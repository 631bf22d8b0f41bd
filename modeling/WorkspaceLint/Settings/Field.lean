import WorkspaceLint.Number.Numeral
import WorkspaceLint.Text.Utf8
import WorkspaceLint.Value.Literal

/-!
# Fields of settings

The values that fields of settings take, and what is said about a value that a field does not take. A field for a text takes
texts; a field for a number takes whole numbers, fractions that are whole, truth values, and texts that write a whole number.
-/

namespace WorkspaceLint.Settings

/-- Why a field does not take a value. -/
inductive FieldFault where
  /-- The value is no text. -/
  | notText
  /-- The octets are no text. -/
  | notTextOctets
  /-- A whole number in the list has too many digits to be written. -/
  | unwritable
  /-- The value is no whole number. -/
  | notInt
  /-- The text writes no whole number. -/
  | intText
  /-- The number has too many digits. -/
  | intSize
  /-- The number has a fraction. -/
  | fractional
  /-- The number is past all numbers, or none. -/
  | notFinite
  /-- The number is negative. -/
  | negative
deriving DecidableEq

/-- The name of a fault in reports for programs. -/
def FieldFault.label : FieldFault → String
  | .notText => "string_type"
  | .notTextOctets => "string_unicode"
  | .unwritable => "value_error"
  | .notInt => "int_type"
  | .intText => "int_parsing"
  | .intSize => "int_parsing_size"
  | .fractional => "int_from_float"
  | .notFinite => "finite_number"
  | .negative => "greater_than_equal"

/-- What is said about a fault. -/
def FieldFault.message : FieldFault → String
  | .notText => "Input should be a valid string"
  | .notTextOctets => "Input should be a valid string, unable to parse raw data as a unicode string"
  | .unwritable => "Value error, " ++ Number.unwritableMessage
  | .notInt => "Input should be a valid integer"
  | .intText => "Input should be a valid integer, unable to parse string as an integer"
  | .intSize => "Unable to parse input string as an integer, exceeded maximum size"
  | .fractional => "Input should be a valid integer, got a number with a fractional part"
  | .notFinite => "Input should be a finite number"
  | .negative => "Input should be greater than or equal to 0"

/-! ### Texts -/

/-- The text that a value gives a field. -/
def textOf : Value → Except FieldFault String
  | .text s => .ok s
  | .octets bytes => ((Text.decode bytes).mapError fun _ => FieldFault.notTextOctets).map String.ofList
  | _ => .error .notText

/-- A list as one text, with commas between its members; other values stay as they are. -/
def joinList : Value → Except FieldFault Value
  | .list items =>
    if Value.areWritable items then .ok (.text (",".intercalate (items.map Value.asText))) else .error .unwritable
  | v => .ok v

/-! ### Whole numbers -/

/-- The whole number that digits without leading zeros and an optional minus write. -/
def plainInt? (s : List Char) : Option Int :=
  let (negative, digits) := match s with
    | '-' :: rest => (true, rest)
    | rest => (false, rest)
  if digits = [] ∨ !digits.all Number.isDigit ∨ (digits.head? = some '0' ∧ digits ≠ ['0']) then none
  else
    let n : Int := Number.ofDecimalDigits digits
    some (if negative then -n else n)

/-- A text without zeros, and underscores between and after them, in front of its first other digit. Before a point, and where
nothing else is written, the last of them stays. -/
def dropLeadingZeros? (s : List Char) : Option (List Char) :=
  match s with
  | '0' :: _ =>
    let zeros := s.takeWhile fun c => c = '0' ∨ c = '_'
    match s.drop zeros.length with
    | [] => some [zeros.getLastD '0']
    | '.' :: rest => some (zeros.getLastD '0' :: '.' :: rest)
    | c :: rest => if Number.isDigit c then some (c :: rest) else none
  | c :: _ => if Number.isDigit c ∨ c = '-' then some s else none
  | [] => none

/-- A text without a point and the zeros after it, when zeros and nothing else stand there. -/
def dropZeroFraction (s : List Char) : List Char :=
  match s.dropWhile (· ≠ '.') with
  | '.' :: c :: rest => if (c :: rest).all (· = '0') then s.takeWhile (· ≠ '.') else s
  | _ => s

/-- Whether two underscores stand side by side. -/
def hasDoubleGap : List Char → Bool
  | '_' :: '_' :: _ => true
  | _ :: rest => hasDoubleGap rest
  | [] => false

/-- A text without underscores, when they stand singly and neither first nor last. -/
def dropGaps (s : List Char) : List Char :=
  if s.head? = some '_' ∨ s.getLast? = some '_' ∨ hasDoubleGap s then s else s.filter (· ≠ '_')

/-- A text without one plus in front, which no minus may follow. -/
def dropPlus? : List Char → Option (List Char)
  | '+' :: '-' :: _ => none
  | '+' :: rest => some rest
  | s => some s

/-- A text as plain as it can be made: without a plus, leading zeros, a fraction of zeros, and underscores between digits. -/
def plainForm? (s : List Char) : Option (List Char) := do
  return dropGaps (dropZeroFraction (← dropLeadingZeros? (← dropPlus? s)))

/-- The whole number that a text writes. -/
def intOfText (text : String) : Except FieldFault Int :=
  let s := Text.stripWhere Text.isWhiteSpace text.toList
  match plainInt? s with
  | some n => if Number.maxDigits < s.length then .error .intSize else .ok n
  | none =>
    match plainForm? s with
    | none => .error .intText
    | some plain =>
      match plainInt? plain with
      | some n => if Number.maxDigits < plain.length then .error .intSize else .ok n
      | none => .error .intText

/-- The bound on the size of a fraction that a field for a number takes. -/
def fractionBound : Int := Int.pow 2 63

/-- The whole number that a fraction is. -/
def intOfFraction (x : Number.Binary64) : Except FieldFault Int :=
  if !x.isFinite then .error .notFinite
  else
    match x.toInt? with
    | none => .error .fractional
    | some n => if -fractionBound < n ∧ n < fractionBound then .ok n else .error .intSize

/-- The whole number that a value gives a field. -/
def intOf : Value → Except FieldFault Int
  | .int n => .ok n
  | .bool b => .ok (if b then 1 else 0)
  | .float x => intOfFraction x
  | .text s => intOfText s
  | .octets bytes =>
    match Text.decode bytes with
    | .ok s => intOfText (String.ofList s)
    | .error _ => .error .intText
  | _ => .error .notInt

/-- The number that a value gives a field that takes no negative ones. -/
def natOf (v : Value) : Except FieldFault Nat := do
  let n ← intOf v
  if n < 0 then throw .negative else return n.toNat

end WorkspaceLint.Settings
