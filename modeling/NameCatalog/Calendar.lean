import NameCatalog.Text.Pieces

/-!
# Dates and moments

Days of the Gregorian calendar from year 1 to 9999, and moments of such a day, perhaps with a
distance from universal time. Both are checked when they are made.
-/

namespace NameCatalog.Calendar

def isLeap (year : Nat) : Bool :=
  year % 4 == 0 && (year % 100 != 0 || year % 400 == 0)

def daysInMonth (year month : Nat) : Nat :=
  if month = 2 then (if isLeap year then 29 else 28)
  else if month = 4 ∨ month = 6 ∨ month = 9 ∨ month = 11 then 30
  else 31

inductive Fault where
  | year (n : Nat)
  | month
  | day
  | hour
  | minute
  | second
  | zone (minutes : Int)
deriving DecidableEq, Repr

/-- A length of time in whole days and a rest of less than a day. -/
def durationText (seconds : Int) : Text :=
  let days := seconds.fdiv 86400
  let rest := seconds.fmod 86400
  let part (name : Text) (n : Int) : List Text := if n = 0 then [] else [name ++ toString n]
  let parts := part "days=" days ++ part "seconds=" rest
  let shown : Text := if parts = [] then "0" else Text.join ", " parts
  "datetime.timedelta(" ++ shown ++ ")"

def Fault.message : Fault → Text
  | .year n => "year " ++ toString n ++ " is out of range"
  | .month => "month must be in 1..12"
  | .day => "day is out of range for month"
  | .hour => "hour must be in 0..23"
  | .minute => "minute must be in 0..59"
  | .second => "second must be in 0..59"
  | .zone minutes =>
    "offset must be a timedelta strictly between -timedelta(hours=24) and timedelta(hours=24), not "
      ++ durationText (minutes * 60) ++ "."

structure Date where
  year : Nat
  month : Nat
  day : Nat
deriving DecidableEq, Repr

def Date.make (year month day : Nat) : Except Fault Date :=
  if year < 1 ∨ 9999 < year then .error (.year year)
  else if month < 1 ∨ 12 < month then .error .month
  else if day < 1 ∨ daysInMonth year month < day then .error .day
  else .ok ⟨year, month, day⟩

def Date.dayNumber (d : Date) : Nat :=
  let y := d.year - 1
  y * 365 + y / 4 - y / 100 + y / 400 +
    (List.range (d.month - 1)).foldl (fun days m => days + daysInMonth d.year (m + 1)) d.day

/-- `zone` is the distance from universal time in minutes. -/
structure Moment where
  date : Date
  hour : Nat
  minute : Nat
  second : Nat
  microsecond : Nat
  zone : Option Int
deriving DecidableEq, Repr

def checkZone : Option Int → Except Fault Unit
  | none => .ok ()
  | some minutes => if minutes.natAbs < 1440 then .ok () else .error (.zone minutes)

/-- The distance is checked before the date, and the date before the time of day. -/
def Moment.make (year month day hour minute second microsecond : Nat) (zone : Option Int) :
    Except Fault Moment := do
  checkZone zone
  let date ← Date.make year month day
  if 23 < hour then throw .hour
  if 59 < minute then throw .minute
  if 59 < second then throw .second
  return ⟨date, hour, minute, second, microsecond, zone⟩

/-- Microseconds since the start of year 1, in universal time where a distance from it is known. -/
def Moment.instant (t : Moment) : Int :=
  (((t.date.dayNumber * 24 + t.hour) * 60 + t.minute : Int) - t.zone.getD 0) * 60000000 +
    t.second * 1000000 + t.microsecond

/-- Moments with and without a zone never coincide; two with zones do at the same instant. -/
def Moment.coincides (s t : Moment) : Bool :=
  s.zone.isSome == t.zone.isSome && s.instant == t.instant

def Date.fields (d : Date) : List Text :=
  [toString d.year, toString d.month, toString d.day]

def Date.literal (d : Date) : Text :=
  "datetime.date(" ++ Text.join ", " d.fields ++ ")"

def zoneLiteral (minutes : Int) : Text :=
  if minutes = 0 then "datetime.timezone.utc"
  else "datetime.timezone(" ++ durationText (minutes * 60) ++ ")"

/-- Seconds and microseconds that are zero are left out at the end. -/
def Moment.literal (t : Moment) : Text :=
  let seconds : List Text :=
    if t.microsecond ≠ 0 then [toString t.second, toString t.microsecond]
    else if t.second ≠ 0 then [toString t.second]
    else []
  let zone : List Text := (t.zone.map fun minutes => "tzinfo=" ++ zoneLiteral minutes).toList
  "datetime.datetime(" ++
    Text.join ", "
      (t.date.fields ++ ([toString t.hour, toString t.minute] : List Text) ++ seconds ++ zone) ++
    ")"

end NameCatalog.Calendar
