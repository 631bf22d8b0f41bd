import WorkspaceLint.Yaml.Error
import WorkspaceLint.Yaml.Placed

/-!
# Block scalars

Scalars that are set off by their indentation. After a bar lines are kept as they are; after an angle bracket lines that start
with no blank are folded into one. The header may give the indentation, and says what becomes of the breaks at the end: one is
kept, unless a minus drops it or a plus keeps all.
-/

namespace WorkspaceLint.Yaml

/-- What becomes of the breaks at the end of a block scalar. -/
inductive Chomping where
  /-- None is kept. -/
  | strip
  /-- One is kept. -/
  | clip
  /-- All are kept. -/
  | keep
deriving DecidableEq

/-- The header of a block scalar. -/
structure BlockHeader where
  /-- What becomes of the breaks at the end. -/
  chomping : Chomping
  /-- How much deeper than its parent the scalar is indented, when that is given. -/
  increment : Option Nat

/-- What a sign in a header says. -/
def chomping? : Char → Option Chomping
  | '+' => some .keep
  | '-' => some .strip
  | _ => none

/-- The digit that gives the indentation, and the rest; zero is no indentation. -/
def increment? (s : List Placed) : Except Error (Option Nat × List Placed) :=
  let c := next s
  if c = '0' then .error .malformed
  else if Number.isDigit c then .ok (some (Number.digitValue c), s.drop 1)
  else .ok (none, s)

/-- The sign and the digit of a header, in either order, and the rest. -/
def blockIndicators (s : List Placed) : Except Error (BlockHeader × List Placed) := do
  let (header, rest) ←
    match chomping? (next s) with
    | some chomping => do
      let (increment, rest) ← increment? (s.drop 1)
      pure (BlockHeader.mk chomping increment, rest)
    | none => do
      let (increment, rest) ← increment? s
      match increment, chomping? (next rest) with
      | some _, some chomping => pure (⟨chomping, increment⟩, rest.drop 1)
      | _, _ => pure (⟨.clip, increment⟩, rest)
  if isSpaceOrEnd (next rest) then return (header, rest) else throw .malformed

/-- The rest of a line that may hold spaces and a comment only, and then what follows its break. -/
def ignoredLine (s : List Placed) : Except Error (List Placed) :=
  let s := (span (· == ' ') s).2
  let s := if next s = '#' then (span (!isLineEnd ·) s).2 else s
  if isBreak (next s) then .ok (s.drop 1) else if next s = endMark then .ok s else .error .malformed

/-- The breaks before the first line of a scalar, the greatest indentation among them, and the rest. -/
def leadingBreaks : List Placed → List Char × Nat × List Placed
  | [] => ([], 0, [])
  | p :: rest =>
    if p.char = ' ' then
      let (breaks, indent, rest) := leadingBreaks rest
      (breaks, max indent (p.column + 1), rest)
    else if isBreak p.char then
      let (breaks, indent, rest) := leadingBreaks rest
      (breakChar p.char :: breaks, indent, rest)
    else ([], 0, p :: rest)

/-- The breaks before the next line of a scalar, and the rest, at the indentation of the scalar or before it. -/
def blockBreaks (indent : Nat) : List Placed → List Char × List Placed
  | [] => ([], [])
  | p :: rest =>
    if p.char = ' ' ∧ p.column < indent then blockBreaks indent rest
    else if isBreak p.char then
      let (breaks, rest) := blockBreaks indent rest
      (breakChar p.char :: breaks, rest)
    else ([], p :: rest)

/-- The break that a text starts with, and the rest; at the end of the document there is none. -/
def takeBreak (s : List Placed) : List Char × List Placed :=
  if isBreak (next s) then ([breakChar (next s)], s.drop 1) else ([], s)

/-- Whether a text stands at an indentation and goes on. -/
def isAtLine (indent : Nat) (s : List Placed) : Bool := column s == indent && next s != endMark

/-- What is written between two lines, given the break between them, the breaks after it, and the lines. -/
def joinLines (folded : Bool) (lineBreak breaks : List Char) (before after : List Placed) : List Char :=
  if folded && lineBreak == ['\n'] && !isBlank (next before) && !isBlank (next after) then
    if breaks = [] then [' '] else []
  else lineBreak

/-- What is written after the last line. -/
def chomp (chomping : Chomping) (lineBreak breaks : List Char) : List Char :=
  match chomping with
  | .strip => []
  | .clip => lineBreak
  | .keep => lineBreak ++ breaks

/-- The lines of a scalar from the breaks before one of them on. The bound is on the number of lines. -/
def blockLines (folded : Bool) (chomping : Chomping) (indent : Nat) :
    Nat → List Char → List Placed → List Char × List Placed
  | 0, _, s => ([], s)
  | bound + 1, breaks, s =>
    let (line, afterLine) := span (!isLineEnd ·) s
    let (lineBreak, afterBreak) := takeBreak afterLine
    let (breaks', rest) := blockBreaks indent afterBreak
    if isAtLine indent rest then
      let (more, rest') := blockLines folded chomping indent bound breaks' rest
      (breaks ++ line ++ joinLines folded lineBreak breaks' s rest ++ more, rest')
    else (breaks ++ line ++ chomp chomping lineBreak breaks', rest)

/-- The block scalar that a text starts with, inside a parent of an indentation, and the rest. -/
def blockScalar (parentIndent : Int) (s : List Placed) : Except Error (List Char × List Placed) := do
  let folded := next s == '>'
  let (header, afterHeader) ← blockIndicators (s.drop 1)
  let body ← ignoredLine afterHeader
  let least := max (parentIndent + 1).toNat 1
  let (breaks, indent, rest) :=
    match header.increment with
    | some increment =>
      let indent := least + increment - 1
      let (breaks, rest) := blockBreaks indent body
      (breaks, indent, rest)
    | none =>
      let (breaks, indent, rest) := leadingBreaks body
      (breaks, max least indent, rest)
  if isAtLine indent rest then return blockLines folded header.chomping indent rest.length breaks rest
  else return (chomp header.chomping [] breaks, rest)

end WorkspaceLint.Yaml
