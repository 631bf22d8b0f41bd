import WorkspaceLint.Text.Hex
import WorkspaceLint.Yaml.Timestamp

/-!
# Tags

What kind of value a node stands for. A node may carry a tag; a plain scalar that carries none is told by its form: words for
truth values and for nothing, whole numbers, fractions, days and moments, and the two signs for merging and for a default.
-/

namespace WorkspaceLint.Yaml

/-- The kind of value that a node stands for. -/
inductive Tag where
  /-- Nothing. -/
  | null
  /-- A truth value. -/
  | bool
  /-- A whole number. -/
  | int
  /-- A fraction. -/
  | float
  /-- A text. -/
  | text
  /-- A day or moment. -/
  | timestamp
  /-- Octets. -/
  | octets
  /-- The key under which maps are merged. -/
  | merge
  /-- The key under which the default of a map stands. -/
  | default
  /-- A list. -/
  | list
  /-- A map. -/
  | map
  /-- A set. -/
  | set
  /-- A list of pairs. -/
  | pairs
  /-- A kind that is not known. -/
  | unknown
deriving DecidableEq

/-- What the addresses of known tags start with. -/
def tagSpace : String := "tag:yaml.org,2002:"

/-- The names of known tags. -/
def tagNames : List (String × Tag) :=
  [("null", .null), ("bool", .bool), ("int", .int), ("float", .float), ("str", .text), ("timestamp", .timestamp),
   ("binary", .octets), ("merge", .merge), ("value", .default), ("seq", .list), ("map", .map), ("set", .set),
   ("omap", .pairs), ("pairs", .pairs)]

/-- The tag of an address. -/
def Tag.ofAddress (address : String) : Tag :=
  ((tagNames.find? fun (name, _) => tagSpace ++ name == address).map (·.2)).getD .unknown

/-! ### Scalars by their form -/

/-- A digit or an underscore. -/
def isDigitOrGap (c : Char) : Bool := Number.isDigit c || c == '_'

/-- Digits with underscores among them, the first character a digit. -/
def isDigits : List Char → Bool
  | [] => false
  | c :: rest => Number.isDigit c && rest.all isDigitOrGap

/-- A text without a sign in front. -/
def dropSign : List Char → List Char
  | '-' :: rest => rest
  | '+' :: rest => rest
  | s => s

/-- A number below sixty in one or two digits. -/
def isSixtieth : List Char → Bool
  | [c] => Number.isDigit c
  | [c, d] => Number.isDigit c && c ≤ '5' && Number.isDigit d
  | _ => false

/-- The words for truth values. -/
def boolWords : List String :=
  ["yes", "Yes", "YES", "no", "No", "NO", "true", "True", "TRUE", "false", "False", "FALSE", "on", "On", "ON", "off",
   "Off", "OFF"]

/-- The words for nothing. -/
def nullWords : List String := ["~", "null", "Null", "NULL"]

/-- A whole number in base two, eight, ten or sixteen, or in base sixty with colons. -/
def looksLikeInt (s : List Char) : Bool :=
  match dropSign s with
  | ['0'] => true
  | '0' :: 'b' :: c :: rest => (c :: rest).all fun c => c == '0' || c == '1' || c == '_'
  | '0' :: 'x' :: c :: rest => (c :: rest).all fun c => (Text.hexValue? c).isSome || c == '_'
  | '0' :: rest => rest.all fun c => ('0' ≤ c && c ≤ '7') || c == '_'
  | unsigned =>
    match unsigned.splitOn ':' with
    | whole :: sixtieths => isDigits whole && sixtieths.all isSixtieth
    | [] => false

/-- Nothing, or an exponent with its sign. -/
def isExponent : List Char → Bool
  | [] => true
  | e :: sign :: c :: rest => (e == 'e' || e == 'E') && (sign == '-' || sign == '+') && (c :: rest).all Number.isDigit
  | _ => false

/-- The last part of a fraction in base sixty: a number below sixty, a point and digits. -/
def isSixtiethWithPoint (s : List Char) : Bool :=
  isSixtieth (s.takeWhile (· ≠ '.')) && s.contains '.' && ((s.dropWhile (· ≠ '.')).drop 1).all isDigitOrGap

/-- A fraction with a point, in base ten, or in base sixty with colons, or a word for what is past all numbers or is none. -/
def looksLikeFloat (s : List Char) : Bool :=
  let unsigned := dropSign s
  let whole := unsigned.takeWhile isDigitOrGap
  let isDecimal := match unsigned.drop whole.length with
    | '.' :: rest => isDigits whole && isExponent (rest.dropWhile isDigitOrGap)
    | _ => false
  let isPointed := match s with
    | '.' :: c :: rest => Number.isDigit c && isExponent (rest.dropWhile isDigitOrGap)
    | _ => false
  let isSexagesimal := match unsigned.splitOn ':' with
    | first :: second :: rest =>
      isDigits first && ((second :: rest).dropLast).all isSixtieth && isSixtiethWithPoint ((second :: rest).getLastD [])
    | _ => false
  isDecimal || isPointed || isSexagesimal ||
    [".inf", ".Inf", ".INF"].any (·.toList == unsigned) || [".nan", ".NaN", ".NAN"].any (·.toList == s)

/-- A text without a line feed at its end. -/
def dropFinalBreak (s : List Char) : List Char := if s.getLast? = some '\n' then s.dropLast else s

/-- The tag of a plain scalar that carries none. -/
def Tag.ofPlain (text : List Char) : Tag :=
  let s := dropFinalBreak text
  if text = [] then .null
  else if boolWords.any (·.toList == s) then .bool
  else if looksLikeFloat s then .float
  else if looksLikeInt s then .int
  else if s = ['<', '<'] then .merge
  else if nullWords.any (·.toList == s) then .null
  else if looksLikeTimestamp s then .timestamp
  else if s = ['='] then .default
  else .text

end WorkspaceLint.Yaml
