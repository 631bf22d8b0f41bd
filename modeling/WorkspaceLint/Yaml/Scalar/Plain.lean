import WorkspaceLint.Yaml.Placed

/-!
# Plain scalars

Scalars without quotes: words with blanks between them, over one or more lines. A word ends at a blank, at a colon that a blank
follows, and inside brackets at every bracket, comma and question mark. One line end between two words is read as a space; of
several the first is dropped.
-/

namespace WorkspaceLint.Yaml

/-- A character that has a meaning of its own between brackets. -/
def isBracket (c : Char) : Bool := c == ',' || c == '[' || c == ']' || c == '\x7b' || c == '\x7d'

/-- A character that no plain scalar starts with, unless what follows makes it one. -/
def isIndicator (c : Char) : Bool :=
  "-?:,[]#&*!|>%@".toList.contains c || c == '\x7b' || c == '\x7d' || c == '\x27' || c == '\x22' || c == '\x60'

/-- Whether a plain scalar may start where a text does. -/
def startsPlain (inFlow : Bool) (s : List Placed) : Bool :=
  let c := next s
  !(isBlankOrEnd c || isIndicator c) ||
    (!isBlankOrEnd (ahead 1 s) && (c == '-' || (!inFlow && (c == '?' || c == ':'))))

/-- Whether a word ends before the next character. -/
def endsWord (inFlow : Bool) (s : List Placed) : Bool :=
  let c := next s
  isBlankOrEnd c ||
    (c == ':' && (isBlankOrEnd (ahead 1 s) || (inFlow && isBracket (ahead 1 s)))) ||
    (inFlow && (isBracket c || c == '?'))

/-- The word that a text starts with, and the rest. -/
def plainWord (inFlow : Bool) : List Placed → List Char × List Placed
  | [] => ([], [])
  | p :: rest =>
    if endsWord inFlow (p :: rest) then ([], p :: rest)
    else
      let (word, rest) := plainWord inFlow rest
      (p.char :: word, rest)

/-- The breaks that follow a break, spaces between them passed over, and the rest. A document mark at the start of a line ends the
scalar, and then there is nothing. -/
def plainBreaks : List Placed → Option (List Char) × List Placed
  | [] => (some [], [])
  | p :: rest =>
    if p.char = ' ' then plainBreaks rest
    else if isBreak p.char then
      if startsDocumentMark rest then (none, rest)
      else
        let (breaks, rest) := plainBreaks rest
        (breaks.map (breakChar p.char :: ·), rest)
    else (some [], p :: rest)

/-- What a break and the breaks after it stand for between two words. -/
def foldBreaks (first : Char) (more : List Char) : List Char :=
  if first ≠ '\n' then first :: more else if more = [] then [' '] else more

/-- What stands between two words: the characters it is read as, whether there is a break in it, and the rest. Without characters
the scalar is over. -/
def plainGap (s : List Placed) : List Char × Bool × List Placed :=
  let (spaces, s) := span (· == ' ') s
  match s with
  | p :: rest =>
    if isBreak p.char then
      if startsDocumentMark rest then ([], true, rest)
      else
        match plainBreaks rest with
        | (some breaks, rest) => (foldBreaks (breakChar p.char) breaks, true, rest)
        | (none, rest) => ([], true, rest)
    else (spaces, false, p :: rest)
  | [] => (spaces, false, [])

/-- A scalar, and what is left after it. -/
structure PlainScalar where
  /-- The characters of the scalar. -/
  text : List Char
  /-- Whether the scalar is followed by a break. -/
  brokeLine : Bool
  /-- The rest. -/
  rest : List Placed

/-- The words of a plain scalar that is indented at least so far, after a gap. The bound is on the number of words. -/
def plainFrom (inFlow : Bool) (indent : Int) : Nat → List Char → Bool → List Placed → PlainScalar
  | 0, _, brokeLine, s => ⟨[], brokeLine, s⟩
  | bound + 1, gap, brokeLine, s =>
    let (word, rest) := plainWord inFlow s
    if next s = '#' ∨ word = [] then ⟨[], brokeLine, s⟩
    else
      let (gap', brokeLine', rest') := plainGap rest
      if gap' = [] ∨ next rest' = '#' ∨ (!inFlow ∧ (column rest' : Int) < indent) then ⟨gap ++ word, brokeLine', rest'⟩
      else
        let more := plainFrom inFlow indent bound gap' brokeLine' rest'
        { more with text := gap ++ word ++ more.text }

/-- The plain scalar that a text starts with. -/
def plainScalar (inFlow : Bool) (indent : Int) (s : List Placed) : PlainScalar :=
  plainFrom inFlow indent s.length [] false s

end WorkspaceLint.Yaml
