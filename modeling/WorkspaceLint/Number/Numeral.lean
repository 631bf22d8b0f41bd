import WorkspaceLint.Number.Binary64
import WorkspaceLint.Number.Limit
import WorkspaceLint.Text.Blank
import WorkspaceLint.Text.Case
import WorkspaceLint.Text.DigitTable
import WorkspaceLint.Text.Quoted

/-!
# Numerals

Whole numbers and fractions as they are written by hand: blanks around them are passed over, a sign may stand in front, and a
single underscore may stand between two digits. Digits of all scripts count. `NumeralError` says what a text that is no numeral
is called.
-/

namespace WorkspaceLint.Number

/-- Why a text is no numeral. -/
inductive NumeralError where
  /-- The text is no whole number of a base. -/
  | notInteger (base : Nat) (text : List Char)
  /-- The whole number has too many digits. -/
  | tooLong (digits : Nat)
  /-- The text is no fraction. -/
  | notFraction (text : List Char)
deriving DecidableEq

/-- The message for a text that is no numeral. A long text is cut in the message about whole numbers. -/
def NumeralError.message : NumeralError → String
  | .notInteger base text =>
    "invalid literal for int() with base " ++ toString base ++ ": " ++ String.ofList ((Text.quotedChars text).take 200)
  | .tooLong digits => tooLongMessage digits
  | .notFraction text => "could not convert string to float: " ++ Text.quoted (String.ofList text)

/-- A text without the sign in front, and whether that was a minus. -/
def splitSign : List Char → Bool × List Char
  | '-' :: rest => (true, rest)
  | '+' :: rest => (false, rest)
  | s => (false, s)

/-- The digits of a text in which single underscores may stand between digits; `before` says whether a digit stands before. -/
def digitsOf? (isDigit : Char → Bool) (before : Bool) : List Char → Option (List Char)
  | [] => if before then some [] else none
  | c :: rest =>
    if isDigit c then (digitsOf? isDigit true rest).map (c :: ·)
    else if c = '_' ∧ before then digitsOf? isDigit false rest
    else none

/-- The letter that marks a base after a zero. -/
def baseMark : Nat → List Char
  | 2 => ['b', 'B']
  | 8 => ['o', 'O']
  | 16 => ['x', 'X']
  | _ => []

/-- A text without the mark of its base; an underscore may follow the mark. -/
def dropBaseMark (base : Nat) : List Char → List Char
  | '0' :: c :: rest => if c ∈ baseMark base then (if rest.head? = some '_' then rest.tail else rest) else '0' :: c :: rest
  | s => s

/-- The whole number of a base that a text writes. -/
def integerOf (base : Nat) (text : List Char) : Except NumeralError Int :=
  let (negative, unsigned) := splitSign (Text.latinDigits (Text.stripWhere Text.isWhiteSpace text))
  let isDigitOfBase := fun c => (Text.hexValue? c).any (· < base)
  match digitsOf? isDigitOfBase false (dropBaseMark base unsigned) with
  | none => .error (.notInteger base text)
  | some digits =>
    if base = 10 ∧ maxDigits < digits.length then .error (.tooLong digits.length)
    else
      let n : Int := ofDigits base (digits.map fun c => (Text.hexValue? c).getD 0)
      .ok (if negative then -n else n)

/-- The digits before an exponent, and the exponent; without the letter that starts one it is zero. -/
def splitExponent? (s : List Char) : Option (List Char × Int) :=
  let mantissa := s.takeWhile fun c => c ≠ 'e' ∧ c ≠ 'E'
  match s.drop mantissa.length with
  | [] => some (mantissa, 0)
  | _ :: written =>
    let (negative, digits) := splitSign written
    (digitsOf? isDigit false digits).map fun ds =>
      let n : Int := ofDecimalDigits ds
      (mantissa, if negative then -n else n)

/-- The digits of a part before or after the point, which may be empty. -/
def pointPart? (s : List Char) : Option (List Char) := if s = [] then some [] else digitsOf? isDigit false s

/-- The decimal fraction that a text without sign writes. -/
def decimalOf? (s : List Char) : Option Decimal := do
  let (mantissa, exponent) ← splitExponent? s
  let whole ← pointPart? (mantissa.takeWhile (· ≠ '.'))
  let part ← pointPart? ((mantissa.dropWhile (· ≠ '.')).drop 1)
  if whole = [] ∧ part = [] then none
  else some ⟨ofDecimalDigits (whole ++ part), exponent - part.length⟩

/-- The fraction that a text writes. -/
def fractionOf (text : List Char) : Except NumeralError Binary64 :=
  let (negative, unsigned) := splitSign (Text.latinDigits (Text.stripWhere Text.isWhiteSpace text))
  let word := Text.lowered (String.ofList unsigned)
  if word = "inf" ∨ word = "infinity" then .ok (.infinite negative)
  else if word = "nan" then .ok .nan
  else
    match decimalOf? unsigned with
    | some d => .ok (.ofDecimal negative d)
    | none => .error (.notFraction text)

end WorkspaceLint.Number
