import WorkspaceLint.Text.Hex
import WorkspaceLint.Yaml.Error
import WorkspaceLint.Yaml.Scalar.Plain

/-!
# Quoted scalars

Scalars between quotes, over one or more lines. Between single quotes only a quote is written specially, as two; between double
quotes a backslash starts an escape, and one before a line end drops that line end. Blanks around a line end are dropped, and
line ends are folded as in plain scalars. No document mark may stand inside.
-/

namespace WorkspaceLint.Yaml

/-- The character for a letter after a backslash. -/
def escapeChar? : Char → Option Char
  | '0' => some '\x00'
  | 'a' => some '\x07'
  | 'b' => some '\x08'
  | 't' => some '\t'
  | '\t' => some '\t'
  | 'n' => some '\n'
  | 'v' => some '\x0B'
  | 'f' => some '\x0C'
  | 'r' => some '\r'
  | 'e' => some '\x1B'
  | ' ' => some ' '
  | '\x22' => some '\x22'
  | '\\' => some '\\'
  | '/' => some '/'
  | 'N' => some '\x85'
  | '_' => some '\xA0'
  | 'L' => some '\u2028'
  | 'P' => some '\u2029'
  | _ => none

/-- How many digits of base sixteen follow a letter after a backslash. -/
def escapeDigits? : Char → Option Nat
  | 'x' => some 2
  | 'u' => some 4
  | 'U' => some 8
  | _ => none

/-- The character of a code point. Halves of surrogate pairs are no characters and are replaced. -/
def charOfCode (n : Nat) : Except Error Char :=
  if 0x80000000 ≤ n then .error .codePointTooWide
  else if 0x110000 ≤ n then .error .codePointTooGreat
  else .ok (if 0xD800 ≤ n ∧ n < 0xE000 then '\uFFFD' else Char.ofNat n)

/-- The breaks at the start of a line and after, blanks between them passed over, and the rest. -/
def quotedBreaks (atStart : Bool) : List Placed → Except Error (List Char × List Placed)
  | [] => .ok ([], [])
  | p :: rest =>
    if atStart && startsDocumentMark (p :: rest) then .error .malformed
    else if isBlank p.char then quotedBreaks false rest
    else if isBreak p.char then (quotedBreaks true rest).map fun (breaks, rest) => (breakChar p.char :: breaks, rest)
    else .ok ([], p :: rest)

/-- What an escape stands for, after its backslash, and the rest. -/
def escape (s : List Placed) : Except Error (List Char × List Placed) :=
  let c := next s
  match escapeChar? c, escapeDigits? c with
  | some e, _ => .ok ([e], s.drop 1)
  | none, some count =>
    let digits := chars ((s.drop 1).take count)
    match Text.hexNumber? digits with
    | some n => if digits.length = count then (charOfCode n).map fun e => ([e], s.drop (count + 1)) else .error .malformed
    | none => .error .malformed
  | none, none => if isBreak c then quotedBreaks true (s.drop 1) else .error .malformed

/-- What blanks and breaks inside quotes stand for, and the rest. -/
def quotedGap (s : List Placed) : Except Error (List Char × List Placed) :=
  let (blanks, s) := span isBlank s
  let c := next s
  if c = endMark then .error .malformed
  else if isBreak c then
    (quotedBreaks true (s.drop 1)).map fun (breaks, rest) => (foldBreaks (breakChar c) breaks, rest)
  else .ok (blanks, s)

/-- The characters of a scalar up to its closing quote, and the rest after it. The bound is on the number of steps. -/
def quotedFrom (quote : Char) : Nat → List Placed → Except Error (List Char × List Placed)
  | 0, _ => .error .malformed
  | bound + 1, s =>
    let goOn := fun (read : List Char) (rest : List Placed) =>
      (quotedFrom quote bound rest).map fun (more, rest) => (read ++ more, rest)
    let c := next s
    if c = quote then
      if quote = '\x27' ∧ ahead 1 s = quote then goOn [quote] (s.drop 2) else .ok ([], s.drop 1)
    else if isBlankOrEnd c then (quotedGap s).bind fun (read, rest) => goOn read rest
    else if c = '\\' ∧ quote = '\x22' then (escape (s.drop 1)).bind fun (read, rest) => goOn read rest
    else goOn [c] (s.drop 1)

/-- The quoted scalar that a text starts with, and the rest. -/
def quotedScalar (s : List Placed) : Except Error (List Char × List Placed) := quotedFrom (next s) s.length (s.drop 1)

end WorkspaceLint.Yaml
