import WorkspaceLint.Yaml.Scalar.Quoted
import WorkspaceLint.Yaml.Token

/-!
# From text to tokens

One token after another is taken off the text. Indentation opens and closes lists and maps. A key is only known by the colon
after it: where one may start, its place is kept, and when the colon comes the tokens for a key are put in there. Such a place
is given up at the end of its line and after 1024 characters; where the indentation asks for a key, giving up is an error.
-/

namespace WorkspaceLint.Yaml

/-- A place where a key may have started. -/
structure KeyPlace where
  /-- The number of tokens before. -/
  tokenCount : Nat
  /-- Whether the indentation asks for a key. -/
  isRequired : Bool
  /-- The place of the first character. -/
  start : Placed

/-- A text of which some tokens have been taken off. -/
structure Scan where
  /-- What is left of the text. -/
  rest : List Placed
  /-- The tokens so far. -/
  tokens : Array Token
  /-- How many brackets and braces are open. -/
  flowLevel : Nat
  /-- The column of the innermost list or map by indentation; before any there is minus one. -/
  indent : Int
  /-- The columns of the ones around it. -/
  outerIndents : List Int
  /-- Whether a key may start. -/
  allowsKey : Bool
  /-- Where keys may have started, by the number of open brackets. -/
  keyPlaces : List (Nat × KeyPlace)

namespace Scan

/-- A text of which nothing has been taken off. -/
def start (text : List Char) : Scan where
  rest := place text
  tokens := #[]
  flowLevel := 0
  indent := -1
  outerIndents := []
  allowsKey := true
  keyPlaces := []

/-- Whether brackets or braces are open. -/
def inFlow (s : Scan) : Bool := s.flowLevel != 0

/-- The column of the next character. -/
def column (s : Scan) : Int := Yaml.column s.rest

/-- One more token. -/
def push (s : Scan) (t : Token) : Scan := { s with tokens := s.tokens.push t }

/-- A token that is taken off with as many characters as given. -/
def take (s : Scan) (t : Token) (n : Nat) : Scan := { s.push t with rest := s.rest.drop n }

/-- The spaces, comments and breaks before the next token passed over. A break outside brackets lets a key start. -/
def skipFrom (inFlow allowsKey : Bool) : List Placed → Bool × List Placed
  | [] => (allowsKey, [])
  | p :: rest =>
    if p.char = ' ' then skipFrom inFlow allowsKey rest
    else if p.char = '#' then skipComment inFlow allowsKey rest
    else if isBreak p.char then skipFrom inFlow (allowsKey || !inFlow) rest
    else (allowsKey, p :: rest)
where
  /-- The same inside a comment. -/
  skipComment (inFlow allowsKey : Bool) : List Placed → Bool × List Placed
    | [] => (allowsKey, [])
    | p :: rest =>
      if isBreak p.char then skipFrom inFlow (allowsKey || !inFlow) rest
      else if p.char = endMark then (allowsKey, p :: rest)
      else skipComment inFlow allowsKey rest

/-- The text at the next token. A byte order mark at the start of the text is passed over. -/
def skip (s : Scan) : Scan :=
  let rest := match s.rest with
    | p :: rest => if p.offset = 0 ∧ p.char = '\uFEFF' then rest else p :: rest
    | [] => []
  let (allowsKey, rest) := skipFrom s.inFlow s.allowsKey rest
  { s with rest, allowsKey }

/-- Whether a place where a key may have started is given up at the next character. -/
def isStale (s : Scan) (k : KeyPlace) : Bool :=
  match s.rest.head? with
  | some p => k.start.line != p.line || 1024 < p.offset - k.start.offset
  | none => true

/-- The places that are given up are forgotten. -/
def dropStale (s : Scan) : Except Error Scan :=
  if s.keyPlaces.any fun (_, k) => k.isRequired && s.isStale k then .error .malformed
  else .ok { s with keyPlaces := s.keyPlaces.filter fun (_, k) => !s.isStale k }

/-- The place at the present number of open brackets is given up. -/
def dropKeyPlace (s : Scan) : Except Error Scan :=
  if s.keyPlaces.any fun (level, k) => level = s.flowLevel && k.isRequired then .error .malformed
  else .ok { s with keyPlaces := s.keyPlaces.filter (·.1 ≠ s.flowLevel) }

/-- The place of the next character is kept, when a key may start there. -/
def saveKeyPlace (s : Scan) : Except Error Scan :=
  match s.allowsKey, s.rest.head? with
  | true, some p => do
    let isRequired := !s.inFlow && s.indent = s.column
    let s ← s.dropKeyPlace
    return { s with keyPlaces := (s.flowLevel, ⟨s.tokens.size, isRequired, p⟩) :: s.keyPlaces }
  | _, _ => .ok s

/-- Lists and maps that are indented deeper than a column are closed. -/
def closeDeeper (column : Int) (s : Scan) : Scan :=
  if s.inFlow then s
  else
    let closed := (s.indent :: s.outerIndents).takeWhile (column < ·)
    match (s.indent :: s.outerIndents).drop closed.length with
    | indent :: outerIndents =>
      { s with indent, outerIndents, tokens := s.tokens ++ (closed.map fun _ => Token.blockEnd).toArray }
    | [] => s

/-- A list or map is opened at a column that is deeper than the present one; its token is put in after as many tokens as
given. -/
def openAt (column : Int) (tokenCount : Nat) (t : Token) (s : Scan) : Scan :=
  if s.indent < column then
    { s with indent := column, outerIndents := s.indent :: s.outerIndents, tokens := s.tokens.insertIdxIfInBounds tokenCount t }
  else s

/-- The same token kind at the next character, outside brackets, where a key has to be allowed to start. -/
def openHere (t : Token) (s : Scan) : Except Error Scan :=
  if s.inFlow then .ok s
  else if !s.allowsKey then .error .malformed
  else .ok (s.openAt s.column s.tokens.size t)

/-- Everything by indentation is closed, and no key may start. -/
def closeAll (s : Scan) : Except Error Scan := do
  let s ← (s.closeDeeper (-1)).dropKeyPlace
  return { s with allowsKey := false }

/-- A mark of three characters that starts or ends a document. -/
def takeMark (t : Token) (s : Scan) : Except Error Scan := do return (← s.closeAll).take t 3

/-- An opening bracket or brace. -/
def takeOpening (t : Token) (s : Scan) : Except Error Scan := do
  let s ← s.saveKeyPlace
  return { s.take t 1 with flowLevel := s.flowLevel + 1, allowsKey := true }

/-- A closing bracket or brace. -/
def takeClosing (t : Token) (s : Scan) : Except Error Scan := do
  if !s.inFlow then throw .malformed
  let s ← s.dropKeyPlace
  return { s.take t 1 with flowLevel := s.flowLevel - 1, allowsKey := false }

/-- A comma between brackets. -/
def takeComma (s : Scan) : Except Error Scan := do
  let s ← s.dropKeyPlace
  return { s.take .comma 1 with allowsKey := true }

/-- The hyphen before an item of a list. -/
def takeItem (s : Scan) : Except Error Scan := do
  let s ← (← s.openHere .blockListStart).dropKeyPlace
  return { s.take .item 1 with allowsKey := true }

/-- The question mark before a key. -/
def takeKey (s : Scan) : Except Error Scan := do
  let s ← (← s.openHere .blockMapStart).dropKeyPlace
  return { s.take .key 1 with allowsKey := !s.inFlow }

/-- The colon before a value. When a key may have started before it, that place now is the start of a key. -/
def takeValue (s : Scan) : Except Error Scan :=
  match s.keyPlaces.lookup s.flowLevel with
  | some k =>
    let s := { s with
      keyPlaces := s.keyPlaces.filter (·.1 ≠ s.flowLevel)
      tokens := s.tokens.insertIdxIfInBounds k.tokenCount .key }
    let s := if s.inFlow then s else s.openAt k.start.column k.tokenCount .blockMapStart
    .ok { s.take .value 1 with allowsKey := false }
  | none => do
    let s ← (← s.openHere .blockMapStart).dropKeyPlace
    return { s.take .value 1 with allowsKey := !s.inFlow }

/-- A token that a key may start with, by what takes it off the text. -/
def takeNode (read : List Placed → Except Error (Token × List Placed)) (s : Scan) : Except Error Scan := do
  let s ← s.saveKeyPlace
  let (t, rest) ← read s.rest
  return { s.push t with rest, allowsKey := false }

/-- A block scalar. -/
def takeBlockScalar (s : Scan) : Except Error Scan := do
  let s ← s.dropKeyPlace
  let (text, rest) ← blockScalar s.indent s.rest
  return { s.push (.scalar false (String.ofList text)) with rest, allowsKey := true }

/-- A plain scalar. A key may start after it when it ends with a break. -/
def takePlain (s : Scan) : Except Error Scan := do
  let s ← s.saveKeyPlace
  let found := plainScalar s.inFlow (s.indent + 1) s.rest
  return { s.push (.scalar true (String.ofList found.text)) with rest := found.rest, allowsKey := found.brokeLine }

/-- The end of the text. -/
def takeEnd (s : Scan) : Except Error Scan := do return (← s.closeAll).push .streamEnd

/-- A directive. -/
def takeDirective (s : Scan) : Except Error Scan := do
  let s ← s.closeAll
  let (t, rest) ← directive s.rest
  return { s.push t with rest }

/-- The next token is taken off. -/
def step (s : Scan) : Except Error Scan := do
  let s ← s.skip.dropStale
  let s := s.closeDeeper s.column
  let c := next s.rest
  let second := ahead 1 s.rest
  let atLineStart := s.column = 0
  if c = endMark then s.takeEnd
  else if c = '%' ∧ atLineStart then s.takeDirective
  else if atLineStart ∧ startsDocumentStart s.rest then s.takeMark .documentStart
  else if atLineStart ∧ startsDocumentEnd s.rest then s.takeMark .documentEnd
  else if c = '[' then s.takeOpening .listStart
  else if c = '\x7b' then s.takeOpening .mapStart
  else if c = ']' then s.takeClosing .listEnd
  else if c = '\x7d' then s.takeClosing .mapEnd
  else if c = ',' then s.takeComma
  else if c = '-' ∧ isBlankOrEnd second then s.takeItem
  else if c = '?' ∧ (s.inFlow ∨ isBlankOrEnd second) then s.takeKey
  else if c = ':' ∧ (s.inFlow ∨ isBlankOrEnd second) then s.takeValue
  else if c = '*' then s.takeNode fun r => (anchorName (r.drop 1)).map fun (name, rest) => (.alias name, rest)
  else if c = '&' then s.takeNode fun r => (anchorName (r.drop 1)).map fun (name, rest) => (.anchor name, rest)
  else if c = '!' then s.takeNode tagToken
  else if (c = '|' ∨ c = '>') ∧ !s.inFlow then s.takeBlockScalar
  else if c = '\x27' ∨ c = '\x22' then
    s.takeNode fun r => (quotedScalar r).map fun (text, rest) => (.scalar false (String.ofList text), rest)
  else if startsPlain s.inFlow s.rest then s.takePlain
  else throw .malformed

/-- Tokens are taken off until the end of the text. The bound is on the number of steps. -/
def run : Nat → Scan → Except Error (Array Token)
  | 0, _ => .error .malformed
  | bound + 1, s => do
    let s ← s.step
    if s.tokens.back? = some .streamEnd then return s.tokens else run bound s

end Scan

/-- The tokens of a text. -/
def tokensOf (text : List Char) : Except Error (List Token) :=
  ((Scan.start text).run (text.length + 1)).map Array.toList

end WorkspaceLint.Yaml
