import WorkspaceLint.Json.Token
import WorkspaceLint.Number.Limit
import WorkspaceLint.Value.Basic

/-!
# Reading JSON

From tokens to a value, one token at a time: `Mode` says what may stand next, and a stack of frames holds the lists and maps
that are open. A key that stands twice keeps its first place and its last value. Lists and maps may lie in each other as deeply as
they like.
-/

namespace WorkspaceLint.Json

/-- A list or map that is open. -/
inductive Frame where
  /-- A list with the items before, last first. -/
  | list (items : List Value)
  /-- A map with the entries before and the key whose value is read. -/
  | map (entries : List (Value × Value)) (key : String)

/-- What may stand next. -/
inductive Mode where
  /-- A value. -/
  | value
  /-- The first item of a list, or its end. -/
  | firstItem
  /-- A key, after the entries before. -/
  | key (entries : List (Value × Value))
  /-- The first key of a map, or its end. -/
  | firstKey
  /-- The colon after a key. -/
  | colon (entries : List (Value × Value)) (key : String)
  /-- What follows a value. -/
  | after (v : Value)

/-- What has been read: what may stand next, and what is open, innermost first. -/
structure State where
  /-- What may stand next. -/
  mode : Mode
  /-- What is open. -/
  frames : List Frame

/-- The fraction that a token writes. -/
def fractionValue (negative : Bool) (whole part : List Char) (exponentNegative : Bool) (exponent : List Char) : Value :=
  let e : Int := Number.ofDecimalDigits exponent
  let shift : Int := if exponentNegative then -e else e
  .float (.ofDecimal negative ⟨Number.ofDecimalDigits (whole ++ part), shift - part.length⟩)

/-- The integer that a token writes. -/
def integerValue (negative : Bool) (digits : List Char) : Value :=
  let n : Int := Number.ofDecimalDigits digits
  .int (if negative then -n else n)

namespace State

/-- Nothing read. -/
def start : State := ⟨.value, []⟩

/-- A token where a value may stand. -/
def stepValue (text : List Char) (frames : List Frame) (offset : Nat) : Token → Except Error State
  | .string s => .ok ⟨.after (.text s), frames⟩
  | .integer negative digits =>
    if Number.maxDigits < digits.length then .error (.integerTooLong digits.length)
    else .ok ⟨.after (integerValue negative digits), frames⟩
  | .fraction negative whole part en e => .ok ⟨.after (fractionValue negative whole part en e), frames⟩
  | .null => .ok ⟨.after .null, frames⟩
  | .bool b => .ok ⟨.after (.bool b), frames⟩
  | .nan => .ok ⟨.after (.float .nan), frames⟩
  | .infinity negative => .ok ⟨.after (.float (.infinite negative)), frames⟩
  | .leftBracket => .ok ⟨.firstItem, .list [] :: frames⟩
  | .leftBrace => .ok ⟨.firstKey, frames⟩
  | .broken fault place => .error (.at text fault place)
  | _ => .error (.at text .value offset)

/-- A token where a key may stand. -/
def stepKey (text : List Char) (frames : List Frame) (entries : List (Value × Value)) (offset : Nat) :
    Token → Except Error State
  | .string s => .ok ⟨.colon entries s, frames⟩
  | .broken fault place => .error (.at text fault place)
  | _ => .error (.at text .key offset)

/-- A token after a value inside a list or map. -/
def stepAfter (text : List Char) (v : Value) (frame : Frame) (frames : List Frame) (offset : Nat) (t : Token) :
    Except Error State :=
  match frame, t with
  | .list items, .comma => .ok ⟨.value, .list (v :: items) :: frames⟩
  | .list items, .rightBracket => .ok ⟨.after (.list (v :: items).reverse), frames⟩
  | .map entries key, .comma => .ok ⟨.key (Value.putEntry (.text key) v entries), frames⟩
  | .map entries key, .rightBrace => .ok ⟨.after (.map (Value.putEntry (.text key) v entries)), frames⟩
  | _, _ => .error (.at text .comma offset)

/-- One token further; after a whole value no token may follow. -/
def step (text : List Char) (s : State) (offset : Nat) (t : Token) : Except Error State :=
  match s.mode, t with
  | .value, t => stepValue text s.frames offset t
  | .firstItem, .rightBracket => .ok ⟨.after (.list []), s.frames.tail⟩
  | .firstItem, t => stepValue text s.frames offset t
  | .key entries, t => stepKey text s.frames entries offset t
  | .firstKey, .rightBrace => .ok ⟨.after (.map []), s.frames⟩
  | .firstKey, t => stepKey text s.frames [] offset t
  | .colon entries key, .colon => .ok ⟨.value, .map entries key :: s.frames⟩
  | .colon _ _, _ => .error (.at text .colon offset)
  | .after v, t =>
    match s.frames with
    | frame :: frames => stepAfter text v frame frames offset t
    | [] => .error (.at text .extra offset)

/-- The value that tokens write. -/
def run (text : List Char) (s : State) : List (Nat × Token) → Except Error Value
  | [] => .error (.at text .value text.length)
  | (offset, t) :: rest =>
    match s.mode, s.frames, t with
    | .after v, [], .done => .ok v
    | _, _, _ => (s.step text offset t).bind fun s => run text s rest

end State

/-- The value that a text writes, or why it writes none. -/
def read (text : List Char) : Except Error Value :=
  if text.head? = some '\uFEFF' then .error (.at text .byteOrderMark 0)
  else State.start.run text (scan text)

end WorkspaceLint.Json
