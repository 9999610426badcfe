import LayerLint.Binary64.Decimal

/-!
# Dates and times

Days of the Gregorian calendar and times of day, perhaps with the distance from universal time, and their two
forms as text: as a date is written, and as a message shows it.
-/

namespace LayerLint.Yaml

/-- A number in decimal digits, padded with zeros to a width. -/
def padded (width n : Nat) : String :=
  let digits := Binary64.digitText n
  Binary64.zeros (width - digits.length) ++ digits

/-- A day of the calendar. -/
structure Date where
  year : Nat
  month : Nat
  day : Nat
deriving DecidableEq, Repr

/-- A day with a time, in microseconds, and the distance from universal time in minutes, if it is known. -/
structure Timestamp where
  date : Date
  hour : Nat
  minute : Nat
  second : Nat
  micro : Nat
  offset : Option Int
deriving DecidableEq, Repr

/-- What is wrong with the fields of a date or time. -/
inductive DateError where
  | year (year : Nat)
  | month
  | day
  | hour
  | minute
  | second
  | offset (minutes : Int)
deriving DecidableEq, Repr

/-- Every fourth year is a leap year, but of the full centuries only every fourth. -/
def isLeapYear (year : Nat) : Bool := year % 4 == 0 && (year % 100 != 0 || year % 400 == 0)

/-- The number of days in a month. -/
def daysInMonth (year month : Nat) : Nat :=
  if month = 2 then (if isLeapYear year then 29 else 28)
  else if month ∈ [4, 6, 9, 11] then 30
  else 31

namespace Date

/-- The date with the given fields, if there is one. -/
def make (year month day : Nat) : Except DateError Date :=
  if year = 0 then .error (.year year)
  else if month = 0 ∨ 12 < month then .error .month
  else if day = 0 ∨ daysInMonth year month < day then .error .day
  else .ok ⟨year, month, day⟩

/-- The date as it is written: year, month and day between hyphens. -/
def toText (d : Date) : String := padded 4 d.year ++ "-" ++ padded 2 d.month ++ "-" ++ padded 2 d.day

/-- The number of days from the beginning of the calendar. -/
def dayNumber (d : Date) : Nat :=
  let years := d.year - 1
  years * 365 + years / 4 - years / 100 + years / 400 +
    ((List.range (d.month - 1)).map fun month => daysInMonth d.year (month + 1)).foldr (· + ·) 0 + d.day

/-- The fields as arguments. -/
def arguments (d : Date) : List String := [toString d.year, toString d.month, toString d.day]

/-- The date as a message shows it. -/
def shown (d : Date) : String := "datetime.date(" ++ ", ".intercalate d.arguments ++ ")"

end Date

/-- A span of minutes as a message shows it: whole days, counted downwards, and the seconds after them. -/
def shownSpan (minutes : Int) : String :=
  let days := minutes.fdiv 1440
  let seconds := minutes.fmod 1440 * 60
  let parts :=
    (if days = 0 then [] else ["days=" ++ toString days]) ++
      (if seconds = 0 then [] else ["seconds=" ++ toString seconds])
  "datetime.timedelta(" ++ (if parts.isEmpty then "0" else ", ".intercalate parts) ++ ")"

namespace Timestamp

/-- The time with the given fields, if there is one. -/
def make (year month day hour minute second micro : Nat) (offset : Option Int) : Except DateError Timestamp :=
  let outside := fun (minutes : Int) => minutes ≤ -1440 || 1440 ≤ minutes
  if offset.any outside then .error (.offset (offset.getD 0))
  else
    match Date.make year month day with
    | .error e => .error e
    | .ok date =>
      if 23 < hour then .error .hour
      else if 59 < minute then .error .minute
      else if 59 < second then .error .second
      else .ok ⟨date, hour, minute, second, micro, offset⟩

/-- The time in microseconds from the beginning of the calendar: of universal time if the distance from it is
known. -/
def instant (t : Timestamp) : Int :=
  let minutes : Int := (t.date.dayNumber * 24 + t.hour) * 60 + t.minute - t.offset.getD 0
  (minutes * 60 + t.second) * 1000000 + t.micro

/-- The distance from universal time, with a sign. -/
def offsetText (minutes : Int) : String :=
  (if minutes < 0 then "-" else "+") ++ padded 2 (minutes.natAbs / 60) ++ ":" ++ padded 2 (minutes.natAbs % 60)

/-- The time as it is written: the date, a space and the time of day. -/
def toText (t : Timestamp) : String :=
  t.date.toText ++ " " ++ padded 2 t.hour ++ ":" ++ padded 2 t.minute ++ ":" ++ padded 2 t.second ++
    (if t.micro = 0 then "" else "." ++ padded 6 t.micro) ++
    (match t.offset with
      | some minutes => offsetText minutes
      | none => "")

/-- The time as a message shows it. Seconds and microseconds are left out where they are zero. -/
def shown (t : Timestamp) : String :=
  let small :=
    if t.micro ≠ 0 then [toString t.second, toString t.micro]
    else if t.second ≠ 0 then [toString t.second]
    else []
  let zone :=
    match t.offset with
    | none => []
    | some minutes =>
      if minutes = 0 then ["tzinfo=datetime.timezone.utc"]
      else ["tzinfo=datetime.timezone(" ++ shownSpan minutes ++ ")"]
  let arguments := t.date.arguments ++ [toString t.hour, toString t.minute] ++ small ++ zone
  "datetime.datetime(" ++ ", ".intercalate arguments ++ ")"

end Timestamp

/-- The wording of the error. -/
def DateError.message : DateError → String
  | .year given => s!"year {given} is out of range"
  | .month => "month must be in 1..12"
  | .day => "day is out of range for month"
  | .hour => "hour must be in 0..23"
  | .minute => "minute must be in 0..59"
  | .second => "second must be in 0..59"
  | .offset minutes =>
    "offset must be a timedelta strictly between -timedelta(hours=24) and timedelta(hours=24), not " ++
      shownSpan minutes ++ "."

end LayerLint.Yaml
