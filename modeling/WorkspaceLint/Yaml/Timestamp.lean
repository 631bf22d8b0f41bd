import WorkspaceLint.Number.Decimal
import WorkspaceLint.Value.Moment

/-!
# Days and moments as they are written

A day is written as year, month and day with hyphens between. A moment has a time after it, set off by the letter `T` or by
blanks, with an optional fraction of a second and an optional offset from universal time.
-/

namespace WorkspaceLint.Yaml

/-- The number of at least and at most so many digits that a text starts with, and the rest. -/
def digits? (least most : Nat) (s : List Char) : Option (Nat × List Char) :=
  let ds := (s.take most).takeWhile Number.isDigit
  if ds.length < least then none else some (Number.ofDecimalDigits ds, s.drop ds.length)

/-- The rest of a text after a character. -/
def after? (c : Char) : List Char → Option (List Char)
  | d :: rest => if d = c then some rest else none
  | [] => none

/-- The day that a text starts with, and the rest. -/
def day? (s : List Char) : Option (Day × List Char) := do
  let (year, s) ← digits? 4 4 s
  let (month, s) ← digits? 1 2 (← after? '-' s)
  let (day, s) ← digits? 1 2 (← after? '-' s)
  return (⟨year, month, day⟩, s)

/-- The rest of a text after the blanks it starts with. -/
def afterBlanks (s : List Char) : List Char := s.dropWhile fun c => c = ' ' ∨ c = '\t'

/-- The rest of a text after what sets off a time. -/
def afterTimeMark? : List Char → Option (List Char)
  | 'T' :: rest => some rest
  | 't' :: rest => some rest
  | ' ' :: rest => some (afterBlanks rest)
  | '\t' :: rest => some (afterBlanks rest)
  | _ => none

/-- The millionths of a second that a text starts with, and the rest. Further digits are dropped. -/
def micros : List Char → Nat × List Char
  | '.' :: s =>
    let ds := s.takeWhile Number.isDigit
    (Number.ofDecimalDigits ((ds ++ List.replicate 6 '0').take 6), s.drop ds.length)
  | s => (0, s)

/-- The offset in minutes that a text writes after its sign. -/
def offsetSize? (s : List Char) : Option Nat := do
  let (hours, s) ← digits? 1 2 s
  match s with
  | [] => some (hours * 60)
  | ':' :: s =>
    let (minutes, s) ← digits? 2 2 s
    if s = [] then some (hours * 60 + minutes) else none
  | _ => none

/-- The offset in minutes that a text writes, when it is not empty. -/
def offset? : List Char → Option (Option Int)
  | [] => some none
  | s =>
    match afterBlanks s with
    | ['Z'] => some (some 0)
    | '+' :: rest => (offsetSize? rest).map fun n => some (n : Int)
    | '-' :: rest => (offsetSize? rest).map fun n => some (-(n : Int))
    | _ => none

/-- The moment that a time after a day makes of it. -/
def momentOn? (day : Day) (s : List Char) : Option Moment := do
  let (hour, s) ← digits? 1 2 (← afterTimeMark? s)
  let (minute, s) ← digits? 2 2 (← after? ':' s)
  let (second, s) ← digits? 2 2 (← after? ':' s)
  let (micros, s) := micros s
  return { toDay := day, hour, minute, second, micros, offset := ← offset? s }

/-- A day or a moment. -/
inductive Timestamp where
  /-- A day. -/
  | day (d : Day)
  /-- A moment. -/
  | moment (t : Moment)

/-- The day or moment that a text writes. -/
def timestamp? (s : List Char) : Option Timestamp := do
  let (day, rest) ← day? s
  if rest = [] then return .day day else return .moment (← momentOn? day rest)

/-- Whether a text is taken for a day or moment when nothing says what it is: a day alone then needs two digits for month and
day. -/
def looksLikeTimestamp (s : List Char) : Bool :=
  match timestamp? s with
  | some (.day _) => s.length == 10
  | some (.moment _) => true
  | none => false

end WorkspaceLint.Yaml
