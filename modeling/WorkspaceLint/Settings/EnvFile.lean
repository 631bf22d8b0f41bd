import WorkspaceLint.Text.Blank

/-!
# Files of variables

Lines `NAME=value`, with an optional `export` in front, comments after a hash sign, and values that may stand between single or
double quotes and then go over several lines. A line that is not of this form is passed over. In every value `${NAME}` stands
for a variable set before or given from outside, and `${NAME:-text}` for a text when there is none.
-/

namespace WorkspaceLint.Settings

/-- A character that ends a line. -/
def isLineBreak (c : Char) : Bool := c == '\n' || c == '\r'

/-- A blank inside a line. -/
def isInlineBlank (c : Char) : Bool := Text.isBlank c && !isLineBreak c

/-- A text without the blanks at its start that are inside the line. -/
def skipInline (s : List Char) : List Char := s.dropWhile isInlineBlank

/-- The text after the line that a text starts in. -/
def nextLine (s : List Char) : List Char := (s.dropWhile (!isLineBreak ·)).drop 1

/-! ### Values -/

/-- The characters before a closing quote, and the text after it. A quote after a backslash closes only when no other does. -/
def quotedPart? (quote : Char) : List Char → Option (List Char × List Char)
  | [] => none
  | '\\' :: c :: rest =>
    if c = quote then
      match quotedPart? quote rest with
      | some (part, rest') => some ('\\' :: c :: part, rest')
      | none => some (['\\'], rest)
    else (quotedPart? quote (c :: rest)).map fun (part, rest') => ('\\' :: part, rest')
  | c :: rest =>
    if c = quote then some ([], rest) else (quotedPart? quote rest).map fun (part, rest') => (c :: part, rest')

/-- The character for a letter after a backslash between single quotes. -/
def singleEscape? : Char → Option Char
  | '\\' => some '\\'
  | '\x27' => some '\x27'
  | _ => none

/-- The character for a letter after a backslash between double quotes. -/
def doubleEscape? : Char → Option Char
  | '\\' => some '\\'
  | '\x27' => some '\x27'
  | '\x22' => some '\x22'
  | 'a' => some '\x07'
  | 'b' => some '\x08'
  | 'f' => some '\x0C'
  | 'n' => some '\n'
  | 'r' => some '\r'
  | 't' => some '\t'
  | 'v' => some '\x0B'
  | _ => none

/-- A text with its escapes replaced; a backslash that starts none stays. -/
def unescape (escape? : Char → Option Char) : List Char → List Char
  | '\\' :: c :: rest =>
    match escape? c with
    | some e => e :: unescape escape? rest
    | none => '\\' :: unescape escape? (c :: rest)
  | c :: rest => c :: unescape escape? rest
  | [] => []

/-- A text up to the first comment in it, which a blank has to stand before. -/
def beforeComment : List Char → List Char
  | [] => []
  | c :: rest =>
    if Text.isBlank c && (rest.dropWhile Text.isBlank).head? == some '#' then [] else c :: beforeComment rest

/-- A text without the blanks after its last character that is not blank. -/
def stripEnd (s : List Char) : List Char := (s.reverse.dropWhile Text.isBlank).reverse

/-- The value that a text starts with, and the rest. -/
def valuePart? (s : List Char) : Option (List Char × List Char) :=
  match s with
  | '\x27' :: rest => (quotedPart? '\x27' rest).map fun (part, rest) => (unescape singleEscape? part, rest)
  | '\x22' :: rest => (quotedPart? '\x22' rest).map fun (part, rest) => (unescape doubleEscape? part, rest)
  | s =>
    let line := s.takeWhile (!isLineBreak ·)
    some (stripEnd (beforeComment line), s.drop line.length)

/-! ### Bindings -/

/-- A name and its value, when it has one. -/
abbrev Binding := List Char × Option (List Char)

/-- A text without the word that may stand in front of a name. -/
def skipExport (s : List Char) : List Char :=
  let word := "export".toList
  let rest := s.drop word.length
  if word.isPrefixOf s ∧ rest.head?.any isInlineBlank then skipInline rest else s

/-- The name that a text starts with, and the rest; in front of a comment there is none. -/
def namePart? (s : List Char) : Option (Option (List Char) × List Char) :=
  match s with
  | '#' :: _ => some (none, s)
  | '\x27' :: rest =>
    let name := rest.takeWhile (· ≠ '\x27')
    if name = [] ∨ name.length = rest.length then none else some (some name, rest.drop (name.length + 1))
  | s =>
    let name := s.takeWhile fun c => c ≠ '=' && c ≠ '#' && !Text.isBlank c
    if name = [] then none else some (some name, s.drop name.length)

/-- The text after a line of which nothing but blanks and a comment may be left. -/
def lineEnd? (s : List Char) : Option (List Char) :=
  let s := if (skipInline s).head? = some '#' then s.dropWhile (!isLineBreak ·) else s
  match skipInline s with
  | [] => some []
  | '\r' :: '\n' :: rest => some rest
  | c :: rest => if isLineBreak c then some rest else none

/-- The binding that a text starts with, or nothing where a line has another form, and the text after it. -/
def binding (s : List Char) : Option Binding × List Char :=
  let s := skipExport s
  match namePart? s with
  | none => (none, nextLine s)
  | some (name?, s) =>
    let s := skipInline s
    let close := fun (value : Option (List Char)) (s : List Char) =>
      match lineEnd? s with
      | some rest => (name?.map fun name => (name, value), rest)
      | none => (none, nextLine s)
    match s with
    | '=' :: rest =>
      match valuePart? (skipInline rest) with
      | some (value, rest) => close (some value) rest
      | none => (none, nextLine rest)
    | s => close none s

/-- The bindings of a text. The bound is on their number. -/
def bindingsFrom : Nat → List Char → List Binding
  | 0, _ => []
  | bound + 1, s =>
    match s.dropWhile Text.isBlank with
    | [] => []
    | c :: rest =>
      let (found, rest) := binding (c :: rest)
      found.toList ++ bindingsFrom bound rest

/-- The bindings of a text. -/
def bindings (s : List Char) : List Binding := bindingsFrom (s.length + 1) s

/-! ### References in values -/

/-- A reference that a text starts with: the name, the text that stands in for it, and the rest. -/
def reference? (s : List Char) : Option (List Char × List Char × List Char) :=
  match s with
  | '$' :: '\x7b' :: rest =>
    let body := rest.takeWhile (· ≠ '\x7d')
    let name := body.takeWhile (· ≠ ':')
    if body.length = rest.length then none
    else
      match body.drop name.length with
      | [] => some (name, [], rest.drop (body.length + 1))
      | ':' :: '-' :: substitute => some (name, substitute, rest.drop (body.length + 1))
      | _ => none
  | _ => none

/-- A value with its references replaced by what a look-up gives. The bound is on the number of steps. -/
def expandFrom (lookup? : List Char → Option (List Char)) : Nat → List Char → List Char
  | 0, s => s
  | bound + 1, s =>
    match s with
    | [] => []
    | c :: rest =>
      match reference? (c :: rest) with
      | some (name, substitute, rest) => (lookup? name).getD substitute ++ expandFrom lookup? bound rest
      | none => c :: expandFrom lookup? bound rest

/-- Bindings with the references in their values replaced, given the ones before, last first, and the variables from outside. -/
def expandAll (outside : List (List Char × List Char)) : List Binding → List Binding → List Binding
  | before, [] => before.reverse
  | before, (name, value) :: rest =>
    let lookup? := fun name =>
      match before.lookup name with
      | some found => some (found.getD [])
      | none => outside.lookup name
    expandAll outside ((name, value.map fun v => expandFrom lookup? (v.length + 1) v) :: before) rest

/-- Bindings with one more. A name that is there keeps its place and takes the new value. -/
def putBinding (name : List Char) (value : Option (List Char)) : List Binding → List Binding
  | [] => [(name, value)]
  | (n, v) :: rest => if n = name then (n, value) :: rest else (n, v) :: putBinding name value rest

/-- The variables that a text names, in the order in which it first names them, given the variables from outside. One that is
last named without a value has none. -/
def variablesOf (outside : List (String × String)) (text : List Char) : List (String × Option String) :=
  let expanded := expandAll (outside.map fun (name, value) => (name.toList, value.toList)) [] (bindings text)
  (expanded.foldl (fun acc (name, value) => putBinding name value acc) []).map
    fun (name, value) => (String.ofList name, value.map String.ofList)

end WorkspaceLint.Settings
