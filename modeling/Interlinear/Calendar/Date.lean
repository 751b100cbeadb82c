/-!
# Dates and times

Dates are those of the Gregorian calendar in the years 1 to 9999.  A time of day has microseconds
and may have an offset from universal time, in minutes and of less than a day.  Both have a short
text, as in `2001-12-14 21:59:43.100000-05:00`, and a long one that names the parts.
-/

namespace Interlinear.Calendar

structure Date where
  year : Nat
  month : Nat
  day : Nat
deriving DecidableEq

structure DateTime where
  date : Date
  hour : Nat
  minute : Nat
  second : Nat
  microsecond : Nat
  /-- Minutes east of universal time. -/
  offset : Option Int
deriving DecidableEq

inductive Fault where
  | year (year : Nat)
  | month
  | day
  | hour
  | minute
  | second
  | offset (minutes : Int)
deriving DecidableEq

/-! ## Validity -/

def isLeap (year : Nat) : Bool :=
  year % 4 = 0 && (year % 100 ≠ 0 || year % 400 = 0)

def daysIn (year month : Nat) : Nat :=
  if month = 2 then if isLeap year then 29 else 28
  else if month = 4 ∨ month = 6 ∨ month = 9 ∨ month = 11 then 30
  else 31

def minutesPerDay : Nat := 1440

def Date.check (date : Date) : Except Fault Date :=
  if date.year < 1 ∨ 9999 < date.year then .error (.year date.year)
  else if date.month < 1 ∨ 12 < date.month then .error .month
  else if date.day < 1 ∨ daysIn date.year date.month < date.day then .error .day
  else .ok date

/-- The offset is looked at first, then the date, then the time of day. -/
def DateTime.check (time : DateTime) : Except Fault DateTime := do
  if let some offset := time.offset then
    if minutesPerDay ≤ offset.natAbs then throw (.offset offset)
  let _ ← time.date.check
  if 24 ≤ time.hour then throw .hour
  if 60 ≤ time.minute then throw .minute
  if 60 ≤ time.second then throw .second
  return time

/-! ## Order in time -/

/-- The days before a year. -/
def daysBeforeYear (year : Nat) : Nat :=
  365 * (year - 1) + (year - 1) / 4 - (year - 1) / 100 + (year - 1) / 400

/-- The number of a day, the first of the year 1 being the first. -/
def Date.number (date : Date) : Nat :=
  daysBeforeYear date.year +
    (List.range (date.month - 1)).foldl (fun days month => days + daysIn date.year (month + 1)) 0 +
    date.day

/-- Microseconds on the clock since the start of the calendar. -/
def DateTime.clock (time : DateTime) : Int :=
  ((((time.date.number * 24 + time.hour) * 60 + time.minute) * 60 + time.second) * 1000000 +
    time.microsecond : Nat)

/-- Whether two times are the same; with and without an offset they never are. -/
def DateTime.isSame (a b : DateTime) : Bool :=
  match a.offset, b.offset with
  | none, none => a.clock == b.clock
  | some x, some y => a.clock - x * 60000000 == b.clock - y * 60000000
  | _, _ => false

/-! ## Texts -/

/-- A number in at least so many digits. -/
def padded (width n : Nat) : String :=
  let digits := Nat.toDigits 10 n
  String.ofList (List.replicate (width - digits.length) '0' ++ digits)

def Date.text (date : Date) : String :=
  padded 4 date.year ++ "-" ++ padded 2 date.month ++ "-" ++ padded 2 date.day

def offsetText (offset : Int) : String :=
  (if offset < 0 then "-" else "+") ++ padded 2 (offset.natAbs / 60) ++ ":" ++
    padded 2 (offset.natAbs % 60)

def DateTime.text (time : DateTime) : String :=
  time.date.text ++ " " ++ padded 2 time.hour ++ ":" ++ padded 2 time.minute ++ ":" ++
    padded 2 time.second ++
    (if time.microsecond = 0 then "" else "." ++ padded 6 time.microsecond) ++
    (time.offset.map offsetText).getD ""

def Date.parts (date : Date) : List String :=
  [toString date.year, toString date.month, toString date.day]

def listed (parts : List String) : String :=
  "(" ++ ", ".intercalate parts ++ ")"

def Date.display (date : Date) : String :=
  "datetime.date" ++ listed date.parts

/-- A length of time of so many minutes: whole days rounded down, and seconds. -/
def displayMinutes (minutes : Int) : String :=
  let days := Int.fdiv minutes minutesPerDay
  let seconds := 60 * Int.fmod minutes minutesPerDay
  "datetime.timedelta" ++ listed
    ((if days = 0 then [] else ["days=" ++ toString days]) ++
      (if seconds = 0 then [] else ["seconds=" ++ toString seconds]))

def displayOffset (offset : Int) : String :=
  if offset = 0 then "datetime.timezone.utc"
  else "datetime.timezone" ++ listed [displayMinutes offset]

/-- Seconds and microseconds are left out as far as they are zero. -/
def DateTime.display (time : DateTime) : String :=
  let small :=
    if time.microsecond ≠ 0 then [time.second, time.microsecond]
    else if time.second ≠ 0 then [time.second]
    else []
  "datetime.datetime" ++ listed
    (time.date.parts ++ [toString time.hour, toString time.minute] ++ small.map toString ++
      (time.offset.map fun offset => "tzinfo=" ++ displayOffset offset).toList)

def Fault.message : Fault → String
  | year number => "year " ++ toString number ++ " is out of range"
  | month => "month must be in 1..12"
  | day => "day is out of range for month"
  | hour => "hour must be in 0..23"
  | minute => "minute must be in 0..59"
  | second => "second must be in 0..59"
  | offset minutes =>
      "offset must be a timedelta strictly between -timedelta(hours=24) and " ++
        "timedelta(hours=24), not " ++ displayMinutes minutes ++ "."

end Interlinear.Calendar
