import NameCatalog.Calendar
import NameCatalog.Yaml.Cursor

/-!
# Timestamps

A date, or a date with a time of day and perhaps a distance from universal time, as written in a
scalar.
-/

namespace NameCatalog.Yaml

structure TimeText where
  hour : List CodePoint
  minute : List CodePoint
  second : List CodePoint
  fraction : List CodePoint
  zone : Option Int
deriving Repr

structure Timestamp where
  year : List CodePoint
  month : List CodePoint
  day : List CodePoint
  time : Option TimeText
deriving Repr

namespace Timestamp

def number (ds : List CodePoint) : Nat :=
  ds.foldl (fun n c => n * 10 + (c.toNat - 48)) 0

/-- At least `least` and at most `most` digits, as many as there are. -/
def digits (least most : Nat) (cs : List CodePoint) : Option (List CodePoint × List CodePoint) :=
  let ds := (cs.takeWhile CodePoint.isDigit).take most
  if least ≤ ds.length then some (ds, cs.drop ds.length) else none

def expect (c : CodePoint) : List CodePoint → Option (List CodePoint)
  | x :: rest => if x = c then some rest else none
  | [] => none

/-- The distance from universal time in minutes; the text ends behind it. -/
def readZone : List CodePoint → Option Int
  | ['Z'] => some 0
  | sign :: rest => do
    if sign ≠ '+' ∧ sign ≠ '-' then none
    let (hours, rest) ← digits 1 2 rest
    let minutes ← match rest with
      | [] => some []
      | _ => do
        let (ds, rest) ← digits 2 2 (← expect ':' rest)
        if rest = [] then some ds else none
    let total : Int := number hours * 60 + number minutes
    return if sign = '-' then -total else total
  | [] => none

def readTime (cs : List CodePoint) : Option TimeText := do
  let (hour, rest) ← digits 1 2 cs
  let (minute, rest) ← digits 2 2 (← expect ':' rest)
  let (second, rest) ← digits 2 2 (← expect ':' rest)
  let (fraction, rest) := match rest with
    | '.' :: rest => (rest.takeWhile CodePoint.isDigit, rest.dropWhile CodePoint.isDigit)
    | _ => ([], rest)
  if rest = [] then return ⟨hour, minute, second, fraction, none⟩
  return ⟨hour, minute, second, fraction, some (← readZone (rest.dropWhile isSpace))⟩

/-- Behind the date: the end, or a `T` or blanks and the time. -/
def timePart : List CodePoint → Option (Option TimeText)
  | [] => some none
  | c :: rest =>
    if c = 'T' ∨ c = 't' then (readTime rest).map some
    else if isSpace c then (readTime (rest.dropWhile isSpace)).map some
    else none

def ofChars? (cs : List CodePoint) : Option Timestamp := do
  let (year, rest) ← digits 4 4 cs
  let (month, rest) ← digits 1 2 (← expect '-' rest)
  let (day, rest) ← digits 1 2 (← expect '-' rest)
  return ⟨year, month, day, ← timePart rest⟩

/-- A date alone is recognised only with two digits for month and day. -/
def isPlain (t : Timestamp) : Bool :=
  t.time.isSome || (t.month.length == 2 && t.day.length == 2)

/-- The first six digits of a fraction, filled up with zeros. -/
def microseconds (fraction : List CodePoint) : Nat :=
  let ds := fraction.take 6
  number (ds ++ List.replicate (6 - ds.length) (.char '0'))

end Timestamp

end NameCatalog.Yaml
