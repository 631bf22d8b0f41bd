/-!
# Days and moments

Calendar days of the Gregorian calendar, and moments of a day with or without an offset from universal time, as values of a
configuration. `Day.check` and `Moment.check` name the first field that is out of range.
-/

namespace WorkspaceLint

/-- A calendar day. -/
structure Day where
  /-- The year. -/
  year : Nat
  /-- The month, from one. -/
  month : Nat
  /-- The day of the month, from one. -/
  day : Nat
deriving DecidableEq

/-- A moment of a day. -/
structure Moment extends Day where
  /-- The hour. -/
  hour : Nat
  /-- The minute. -/
  minute : Nat
  /-- The second. -/
  second : Nat
  /-- The millionths of a second. -/
  micros : Nat
  /-- The offset from universal time in minutes, when one is given. -/
  offset : Option Int
deriving DecidableEq

/-- A field of a day or moment that is out of range. -/
inductive MomentError where
  /-- There is no year zero. -/
  | year (year : Nat)
  /-- The month is not one of twelve. -/
  | month
  /-- The month has no such day. -/
  | day
  /-- The day has no such hour. -/
  | hour
  /-- The hour has no such minute. -/
  | minute
  /-- The minute has no such second. -/
  | second
  /-- The offset is a day or longer. -/
  | offset (minutes : Int)
deriving DecidableEq

/-- Whether a year has a leap day. -/
def isLeapYear (year : Nat) : Bool := year % 4 == 0 && (year % 100 != 0 || year % 400 == 0)

/-- How many days a month has. -/
def daysInMonth (year month : Nat) : Nat :=
  if month = 2 then (if isLeapYear year then 29 else 28)
  else if month = 4 ∨ month = 6 ∨ month = 9 ∨ month = 11 then 30
  else 31

/-- A day whose fields are in range, or the first that is not. -/
def Day.check (d : Day) : Except MomentError Day :=
  if d.year = 0 then .error (.year d.year)
  else if d.month = 0 ∨ 12 < d.month then .error .month
  else if d.day = 0 ∨ daysInMonth d.year d.month < d.day then .error .day
  else .ok d

/-- A moment whose fields are in range, or the first that is not; the offset is looked at first. -/
def Moment.check (t : Moment) : Except MomentError Moment := do
  match t.offset with
  | some m => if 24 * 60 ≤ m.natAbs then throw (.offset m)
  | none => pure ()
  let _ ← t.toDay.check
  if 24 ≤ t.hour then throw .hour
  if 60 ≤ t.minute then throw .minute
  if 60 ≤ t.second then throw .second
  return t

/-- A number with zeros in front, at least as wide as given. -/
def zeroPadded (width n : Nat) : String :=
  let digits := Nat.toDigits 10 n
  String.ofList (List.replicate (width - digits.length) '0' ++ digits)

/-- A day as text: year, month and day with hyphens between. -/
def Day.text (d : Day) : String := zeroPadded 4 d.year ++ "-" ++ zeroPadded 2 d.month ++ "-" ++ zeroPadded 2 d.day

/-- An offset as text: a sign, hours and minutes. -/
def offsetText (minutes : Int) : String :=
  (if minutes < 0 then "-" else "+") ++ zeroPadded 2 (minutes.natAbs / 60) ++ ":" ++ zeroPadded 2 (minutes.natAbs % 60)

/-- A moment as text: the day, a space, the time, the millionths when there are any, the offset when there is one. -/
def Moment.text (t : Moment) : String :=
  t.toDay.text ++ " " ++ zeroPadded 2 t.hour ++ ":" ++ zeroPadded 2 t.minute ++ ":" ++ zeroPadded 2 t.second ++
    (if t.micros = 0 then "" else "." ++ zeroPadded 6 t.micros) ++
    (match t.offset with
    | some m => offsetText m
    | none => "")

/-- A span of minutes as a literal: whole days first, then the seconds of a day that is begun. -/
def spanLiteral (minutes : Int) : String :=
  let days := Int.fdiv minutes (24 * 60)
  let seconds := Int.fmod minutes (24 * 60) * 60
  let fields := (if days = 0 then [] else ["days=" ++ toString days]) ++
    (if seconds = 0 then [] else ["seconds=" ++ toString seconds])
  "datetime.timedelta(" ++ (if fields = [] then "0" else ", ".intercalate fields) ++ ")"

/-- A day as a literal. -/
def Day.literal (d : Day) : String :=
  "datetime.date(" ++ ", ".intercalate ([d.year, d.month, d.day].map toString) ++ ")"

/-- A moment as a literal: seconds and millionths that are zero at the end are left out. -/
def Moment.literal (t : Moment) : String :=
  let tail := if t.micros ≠ 0 then [t.second, t.micros] else if t.second ≠ 0 then [t.second] else []
  let zone := match t.offset with
    | none => []
    | some 0 => ["tzinfo=datetime.timezone.utc"]
    | some m => ["tzinfo=datetime.timezone(" ++ spanLiteral m ++ ")"]
  "datetime.datetime(" ++
    ", ".intercalate (([t.year, t.month, t.day, t.hour, t.minute] ++ tail).map toString ++ zone) ++ ")"

/-- The message for a field that is out of range. -/
def MomentError.message : MomentError → String
  | .year y => "year " ++ toString y ++ " is out of range"
  | .month => "month must be in 1..12"
  | .day => "day is out of range for month"
  | .hour => "hour must be in 0..23"
  | .minute => "minute must be in 0..59"
  | .second => "second must be in 0..59"
  | .offset m =>
    "offset must be a timedelta strictly between -timedelta(hours=24) and timedelta(hours=24), not " ++ spanLiteral m ++ "."

end WorkspaceLint
