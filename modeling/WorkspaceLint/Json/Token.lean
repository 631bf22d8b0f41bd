import WorkspaceLint.Json.Error
import WorkspaceLint.Number.Decimal
import WorkspaceLint.Text.Hex

/-!
# Tokens of JSON

A text as tokens with the offsets at which they start. The list of tokens ends with the end of the text, or with the first
token that is broken: a text between quotes that has a fault, or a character that starts no token. What such a token means is
for the reader to say, who knows what should stand there. Half of a pair of code escapes, which is no character by itself, is read
as the replacement character.
-/

namespace WorkspaceLint.Json

/-- A token. -/
inductive Token where
  /-- A left brace. -/
  | leftBrace
  /-- A right brace. -/
  | rightBrace
  /-- A left bracket. -/
  | leftBracket
  /-- A right bracket. -/
  | rightBracket
  /-- A colon. -/
  | colon
  /-- A comma. -/
  | comma
  /-- A text between quotes. -/
  | string (s : String)
  /-- An integer: its sign and its digits. -/
  | integer (negative : Bool) (digits : List Char)
  /-- A fraction: its sign, the digits before and after the point, and the exponent. -/
  | fraction (negative : Bool) (whole part : List Char) (exponentNegative : Bool) (exponent : List Char)
  /-- The word for nothing. -/
  | null
  /-- A word for a truth value. -/
  | bool (b : Bool)
  /-- The word for no number. -/
  | nan
  /-- The word for a number past all others. -/
  | infinity (negative : Bool)
  /-- A text between quotes that has a fault at an offset. -/
  | broken (fault : Fault) (offset : Nat)
  /-- A character that starts no token. -/
  | junk
  /-- The end of the text. -/
  | done
deriving DecidableEq

/-! ### Texts between quotes -/

/-- What has been read of a text between quotes besides its characters. -/
inductive StringState where
  /-- Between characters. An offset says that a code escape, whose `u` stood there, ended just before. -/
  | plain (code : Option Nat)
  /-- After the first half of a pair of code escapes, whose `u` stood at an offset. -/
  | half (high : Nat) (code : Nat)
  /-- After a backslash, perhaps with a first half before it. -/
  | escape (high : Option Nat)
  /-- Inside a code escape whose `u` stands at an offset: the digits read and their value. -/
  | code (high : Option Nat) (start : Nat) (digits : Nat) (value : Nat)

/-- The characters, last first, after a first half that found no second one. -/
def dropHalf (high : Option Nat) (read : List Char) : List Char :=
  match high with
  | some _ => '\uFFFD' :: read
  | none => read

/-- The character that a letter after a backslash stands for. -/
def escaped? : Char → Option Char
  | '\x22' => some '\x22'
  | '\\' => some '\\'
  | '/' => some '/'
  | 'b' => some '\x08'
  | 'f' => some '\x0C'
  | 'n' => some '\n'
  | 'r' => some '\r'
  | 't' => some '\t'
  | _ => none

/-- The state and the characters, last first, after a code escape whose `u` stood at an offset. -/
def closeCode (high : Option Nat) (start value : Nat) (read : List Char) : StringState × List Char :=
  if 0xDC00 ≤ value ∧ value < 0xE000 then
    match high with
    | some h => (.plain (some start), Char.ofNat (0x10000 + (h - 0xD800) * 0x400 + (value - 0xDC00)) :: read)
    | none => (.plain (some start), '\uFFFD' :: read)
  else if 0xD800 ≤ value ∧ value < 0xDC00 then (.half value start, dropHalf high read)
  else (.plain (some start), Char.ofNat value :: dropHalf high read)

/-- The text between quotes whose first quote stands at an offset, and the number of characters after that quote that belong to
it, its last quote among them; or its fault. `read` is what has been read, last first, and `taken` how many characters. -/
def scanString (opening : Nat) : StringState → Nat → List Char → List Char → Except (Fault × Nat) (List Char × Nat)
  | .plain none, _, _, [] => .error (.unterminated, opening)
  | .plain (some u), _, _, [] => .error (.codeEscape, u)
  | .half _ u, _, _, [] => .error (.codeEscape, u)
  | .escape _, _, _, [] => .error (.unterminated, opening)
  | .code _ u _ _, _, _, [] => .error (.codeEscape, u)
  | .plain _, taken, read, c :: rest =>
    if c = '\x22' then .ok (read.reverse, taken + 1)
    else if c = '\\' then scanString opening (.escape none) (taken + 1) read rest
    else if c.toNat < 0x20 then .error (.controlCharacter, opening + 1 + taken)
    else scanString opening (.plain none) (taken + 1) (c :: read) rest
  | .half h _, taken, read, c :: rest =>
    if c = '\x22' then .ok (('\uFFFD' :: read).reverse, taken + 1)
    else if c = '\\' then scanString opening (.escape (some h)) (taken + 1) read rest
    else if c.toNat < 0x20 then .error (.controlCharacter, opening + 1 + taken)
    else scanString opening (.plain none) (taken + 1) (c :: '\uFFFD' :: read) rest
  | .escape high, taken, read, c :: rest =>
    if c = 'u' then scanString opening (.code high (opening + 1 + taken) 0 0) (taken + 1) read rest
    else
      match escaped? c with
      | some d => scanString opening (.plain none) (taken + 1) (d :: dropHalf high read) rest
      | none => .error (.escape, opening + taken)
  | .code high u digits value, taken, read, c :: rest =>
    match Text.hexValue? c with
    | none => .error (.codeEscape, u)
    | some d =>
      if digits = 3 then
        let (state, read) := closeCode high u (value * 16 + d) read
        scanString opening state (taken + 1) read rest
      else scanString opening (.code high u (digits + 1) (value * 16 + d)) (taken + 1) read rest

/-! ### Numbers and words -/

/-- The fraction part of a number, when a point and a digit start the text: the digits, and the text after them. -/
def fractionPart (s : List Char) : List Char × List Char :=
  match s with
  | '.' :: d :: rest =>
    if Number.isDigit d then (d :: rest.takeWhile Number.isDigit, rest.dropWhile Number.isDigit) else ([], s)
  | _ => ([], s)

/-- The exponent of a number, when the letter, perhaps a sign, and a digit start the text: its sign and its digits. -/
def exponentPart (s : List Char) : Bool × List Char :=
  match s with
  | e :: rest =>
    if e = 'e' ∨ e = 'E' then
      match rest with
      | '-' :: ds => (true, ds.takeWhile Number.isDigit)
      | '+' :: ds => (false, ds.takeWhile Number.isDigit)
      | ds => (false, ds.takeWhile Number.isDigit)
    else (false, [])
  | [] => (false, [])

/-- How many characters an exponent with given digits takes at the start of a text. -/
def exponentLength (s digits : List Char) : Nat :=
  if digits = [] then 0
  else
    match s with
    | _ :: '-' :: _ => digits.length + 2
    | _ :: '+' :: _ => digits.length + 2
    | _ => digits.length + 1

/-- The digits before the point: one zero, or digits that start with another one. -/
def wholePart (s : List Char) : List Char :=
  match s with
  | '0' :: _ => ['0']
  | _ => s.takeWhile Number.isDigit

/-- The number that starts a text, without its sign, and how many characters it takes. -/
def scanUnsigned (negative : Bool) (s : List Char) : Option (Token × Nat) :=
  let whole := wholePart s
  if whole = [] then none
  else
    let (part, rest) := fractionPart (s.drop whole.length)
    let (exponentNegative, exponent) := exponentPart rest
    let length := whole.length + (if part = [] then 0 else part.length + 1) + exponentLength rest exponent
    if part = [] ∧ exponent = [] then some (.integer negative whole, length)
    else some (.fraction negative whole part exponentNegative exponent, length)

/-- The words, and the tokens they are. -/
def words : List (List Char × Token) :=
  [("null".toList, .null), ("true".toList, .bool true), ("false".toList, .bool false), ("NaN".toList, .nan),
   ("Infinity".toList, .infinity false), ("-Infinity".toList, .infinity true)]

/-- The number or word that starts a text, and how many characters it takes. -/
def scanWord (s : List Char) : Option (Token × Nat) :=
  match words.find? (·.1.isPrefixOf s) with
  | some (w, t) => some (t, w.length)
  | none =>
    match s with
    | '-' :: rest => (scanUnsigned true rest).map fun (t, n) => (t, n + 1)
    | _ => scanUnsigned false s

/-! ### The tokens of a text -/

/-- The token of a character that is one by itself. -/
def punctuation? : Char → Option Token
  | '\x7b' => some .leftBrace
  | '\x7d' => some .rightBrace
  | '[' => some .leftBracket
  | ']' => some .rightBracket
  | ':' => some .colon
  | ',' => some .comma
  | _ => none

/-- A character that may stand between tokens. -/
def isSpace (c : Char) : Bool := c == ' ' || c == '\t' || c == '\n' || c == '\r'

/-- The tokens of a text that starts at an offset and whose first characters, as many as `skip` says, have been read. -/
def scanFrom : Nat → Nat → List Char → List (Nat × Token)
  | _, offset, [] => [(offset, .done)]
  | skip + 1, offset, _ :: rest => scanFrom skip (offset + 1) rest
  | 0, offset, c :: rest =>
    if isSpace c then scanFrom 0 (offset + 1) rest
    else
      match punctuation? c with
      | some t => (offset, t) :: scanFrom 0 (offset + 1) rest
      | none =>
        if c = '\x22' then
          match scanString offset (.plain none) 0 [] rest with
          | .ok (s, n) => (offset, .string (String.ofList s)) :: scanFrom n (offset + 1) rest
          | .error (fault, at_) => [(offset, .broken fault at_)]
        else
          match scanWord (c :: rest) with
          | some (t, n) => (offset, t) :: scanFrom (n - 1) (offset + 1) rest
          | none => [(offset, .junk)]

/-- The tokens of a text. -/
def scan (s : List Char) : List (Nat × Token) := scanFrom 0 0 s

end WorkspaceLint.Json
