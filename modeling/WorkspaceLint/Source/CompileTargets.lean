import WorkspaceLint.Text.Search

/-!
# The targets that a compile file declares

A compile file names the sources it is built from, either in an array `targets: [ … ]` or in a field `target: '…'`. The array
counts first, wherever it stands. This looks at characters only: items of the array end at commas, quotes in them are dropped,
and empty items are passed over.
-/

namespace WorkspaceLint.Source

/-- The form in which targets are declared. -/
inductive TargetForm where
  /-- The array `targets`. -/
  | array
  /-- The field `target`. -/
  | field
deriving DecidableEq

/-- The name of a form in messages. -/
def TargetForm.label : TargetForm → String
  | .array => "targets 数组"
  | .field => "target 字段"

/-- A quote, single, double or slanted. -/
def isQuote (c : Char) : Bool := c == '\x27' || c == '\x22' || c == '\x60'

/-- What stands in the brackets of an array declaration that starts where the text does. -/
def targetArrayHere? (s : List Char) : Option (List Char) := do
  let s ← Text.afterLiteral? "targets:".toList s
  match s.dropWhile Text.isBlank with
  | '[' :: rest => if rest.contains ']' then some (rest.takeWhile (· ≠ ']')) else none
  | _ => none

/-- The path in a field declaration that starts where the text does. -/
def targetFieldHere? (s : List Char) : Option (List Char) := do
  let s ← Text.afterLiteral? "target:".toList s
  match s.dropWhile Text.isBlank with
  | c :: rest =>
    if isQuote c && rest.any isQuote && !(rest.takeWhile (!isQuote ·)).isEmpty then some (rest.takeWhile (!isQuote ·))
    else none
  | [] => none

/-- The items of an array: between commas, without blanks around them and without quotes, the empty ones left out. -/
def targetItems (body : List Char) : List (List Char) :=
  ((body.splitOn ',').map fun item => (Text.strip item).filter (!isQuote ·)).filter (· ≠ [])

/-- The targets that a text declares, and the form in which it does. -/
def declaredTargets (s : List Char) : List (List Char) × Option TargetForm :=
  match Text.firstMatch? targetArrayHere? s with
  | some body => (targetItems body, some .array)
  | none =>
    match Text.firstMatch? targetFieldHere? s with
    | some path => ([path], some .field)
    | none => ([], none)

/-- The targets that a source declares, and the form in which it does. -/
def targetsOf (source : String) : List String × Option TargetForm :=
  let (targets, form) := declaredTargets source.toList
  (targets.map String.ofList, form)

end WorkspaceLint.Source
