import NameCatalog.Decimal.Numeral
import NameCatalog.Text.Base64
import NameCatalog.Value
import NameCatalog.Yaml.Fault
import NameCatalog.Yaml.Tag

/-!
# The value of a scalar

A scalar of a given type has a value only if its text fits the type. Whole numbers may be binary,
octal, hexadecimal or in groups of sixtieths, and marks (`_`) between digits do not count.
-/

namespace NameCatalog.Yaml.Scalar

open Decimal

def withoutMarks (cs : List CodePoint) : List CodePoint :=
  cs.filter (· != .char '_')

/-- Whether a minus stands in front, and the text behind the sign. -/
def signAndBody : List CodePoint → Except Fault (Bool × List CodePoint)
  | [] => .error .emptyNumeral
  | c :: cs =>
    .ok (c == '-', if c = '-' ∨ c = '+' then cs else c :: cs)

def whole (base : Nat) (cs : List CodePoint) : Except Fault Int :=
  match Numeral.readInt base cs with
  | .ok n => .ok n
  | .error .malformed => .error (.whole base (Text.ofList cs))
  | .error (.tooLong digits) => .error (.tooManyDigits digits)

def ofSixtieths (groups : List Int) : Int :=
  groups.foldl (fun total group => total * 60 + group) 0

def magnitude (cs : List CodePoint) : Except Fault Int :=
  match cs with
  | [] => .error .emptyNumeral
  | ['0'] => .ok 0
  | '0' :: 'b' :: rest => whole 2 rest
  | '0' :: 'x' :: rest => whole 16 rest
  | '0' :: _ => whole 8 cs
  | _ =>
    if .char ':' ∈ cs then do return ofSixtieths (← (Text.pieces ':' cs).mapM (whole 10))
    else whole 10 cs

def int (s : Text) : Except Fault Int := do
  let (negative, body) ← signAndBody (withoutMarks s.toList)
  let n ← magnitude body
  return if negative then -n else n

def fraction (cs : List CodePoint) : Except Fault Binary64 :=
  match Numeral.readReal cs with
  | some x => .ok x
  | none => .error (.real (Text.ofList cs))

/-- Adds the groups to a total, last first, each by its power of sixty. The powers have to be in the
range of the numbers. -/
def sumSixtieths (total : Binary64) (power : Nat) : List Binary64 → Except Fault Binary64
  | [] => .ok total
  | x :: rest =>
    match Binary64.ofNat power with
    | .infinity _ => .error .hugePower
    | p => sumSixtieths (total.add (x.mul p)) (power * 60) rest

/-- Whether a text is a word for not-a-number, once marks, letter case and sign are left out. -/
def isNotANumber (s : Text) : Bool :=
  let lower := Text.lowerCase (Text.ofList (withoutMarks s.toList))
  match signAndBody lower.toList with
  | .ok (_, body) => body = Text.toList ".nan"
  | .error _ => false

def real (s : Text) : Except Fault Binary64 := do
  let lower := Text.lowerCase (Text.ofList (withoutMarks s.toList))
  let (negative, body) ← signAndBody lower.toList
  let signed (x : Binary64) := if negative then x.negate else x
  if body = Text.toList ".inf" then return signed (.infinity false)
  else if body = Text.toList ".nan" then return .nan
  else if .char ':' ∈ body then
    let groups ← (Text.pieces ':' body).mapM fraction
    return signed (← sumSixtieths (.zero false) 1 groups.reverse)
  else return signed (← fraction body)

def bool (s : Text) : Except Fault Bool :=
  let lower := Text.lowerCase s
  if lower = "yes" ∨ lower = "true" ∨ lower = "on" then .ok true
  else if lower = "no" ∨ lower = "false" ∨ lower = "off" then .ok false
  else .error (.truth lower)

def binary (s : Text) : Except Fault (List UInt8) :=
  if s.toList.all (·.toNat < 128) then
    match Text.base64? s.toList with
    | some bytes => .ok bytes
    | none => .error .invalid
  else .error .invalid

def calendar {α : Type} (r : Except Calendar.Fault α) : Except Fault α :=
  match r with
  | .ok a => .ok a
  | .error f => .error (.calendar f)

def dropLineFeed (cs : List CodePoint) : List CodePoint :=
  match cs.reverse with
  | '\n' :: rest => rest.reverse
  | _ => cs

def timestamp (s : Text) : Except Fault Value :=
  match Timestamp.ofChars? (dropLineFeed s.toList) with
  | none => .error .timestamp
  | some t =>
    let n := Timestamp.number
    match t.time with
    | none => do return .date (← calendar (Calendar.Date.make (n t.year) (n t.month) (n t.day)))
    | some u => do
      return .moment (← calendar (Calendar.Moment.make (n t.year) (n t.month) (n t.day) (n u.hour)
        (n u.minute) (n u.second) (Timestamp.microseconds u.fraction) u.zone))

/-- The value of a scalar of the given type. Collection types and types without values have
none. -/
def value (tag : Tag) (s : Text) : Except Fault Value :=
  match tag with
  | .null => .ok .null
  | .bool => .bool <$> bool s
  | .int => .int <$> int s
  | .real => .real <$> real s
  | .binary => .bytes <$> binary s
  | .timestamp => timestamp s
  | .text => .ok (.text s)
  | _ => .error .invalid

@[simp] theorem value_text (s : Text) : value .text s = .ok (.text s) := rfl

end NameCatalog.Yaml.Scalar
