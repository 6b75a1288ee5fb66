import NameCatalog.Decimal.Numeral
import NameCatalog.Json.Basic
import NameCatalog.Text.Hex
import NameCatalog.Text.Surrogate

/-!
# Reading JSON

A text is one value with blanks around it. Two escaped surrogates in the right order are one
character; a lone one is kept.
-/

namespace NameCatalog.Json

open Decimal

def isBlank (c : CodePoint) : Bool :=
  c == ' ' || c == '\t' || c == '\n' || c == '\r'

def skipBlanks (cs : List CodePoint) : List CodePoint := cs.dropWhile isBlank

def simpleEscapes : List (CodePoint × CodePoint) := [
  ('"', '"'), ('\\', '\\'), ('/', '/'), ('b', '\x08'), ('f', '\x0c'), ('n', '\n'), ('r', '\r'),
  ('t', '\t')]

/-- Where the reader of a string stands: in the text, behind a backslash, among the digits of a
code, or behind a high surrogate. -/
inductive TextState where
  | text
  | escape (high : Option Nat)
  | code (high : Option Nat) (remaining value : Nat)
  | afterHigh (high : Nat)

/-- The characters that one more code adds, behind a high surrogate or not. -/
def codeText (high : Option Nat) (n : Nat) : List CodePoint × TextState :=
  match high with
  | some h =>
    if Text.isLowSurrogate n then ([Text.joinSurrogates h n], .text)
    else if Text.isHighSurrogate n then ([CodePoint.ofNat h], .afterHigh n)
    else ([CodePoint.ofNat h, CodePoint.ofNat n], .text)
  | none => if Text.isHighSurrogate n then ([], .afterHigh n) else ([CodePoint.ofNat n], .text)

def loneHigh (high : Option Nat) : List CodePoint :=
  match high with
  | some h => [CodePoint.ofNat h]
  | none => []

/-- One character of a string: what it adds, and the next state; none when the string ends. -/
def textStep (state : TextState) (c : CodePoint) : Option (List CodePoint × Option TextState) :=
  match state with
  | .text =>
    if c = '"' then some ([], none)
    else if c = '\\' then some ([], some (.escape none))
    else if c.toNat < 0x20 then none
    else some ([c], some .text)
  | .afterHigh h =>
    if c = '"' then some ([CodePoint.ofNat h], none)
    else if c = '\\' then some ([], some (.escape (some h)))
    else if c.toNat < 0x20 then none
    else some ([CodePoint.ofNat h, c], some .text)
  | .escape high =>
    if c = 'u' then some ([], some (.code high 4 0))
    else (simpleEscapes.lookup c).map fun e => (loneHigh high ++ [e], some .text)
  | .code high remaining value =>
    (Text.hexValue? c).map fun d =>
      if 1 < remaining then ([], some (.code high (remaining - 1) (value * 16 + d)))
      else
        let (added, next) := codeText high (value * 16 + d)
        (added, some next)

/-- The rest of a string behind its opening quote. -/
def readText : TextState → List CodePoint → Option (List CodePoint × List CodePoint)
  | _, [] => none
  | state, c :: cs =>
    match textStep state c with
    | none => none
    | some (added, none) => some (added, cs)
    | some (added, some next) => (readText next cs).map fun r => (added ++ r.1, r.2)

def isNumberChar (c : CodePoint) : Bool :=
  c.isDigit || c == '-' || c == '+' || c == '.' || c == 'e' || c == 'E'

/-- A number is whole when it has neither point nor exponent. -/
def readNumber (cs : List CodePoint) : Option (Json × List CodePoint) :=
  let word := cs.takeWhile isNumberChar
  let rest := cs.dropWhile isNumberChar
  let (negative, digits) := Numeral.splitSign word
  if digits.all CodePoint.isDigit then
    if digits = [] then none
    else
      let n : Int := Numeral.natOfDigits digits
      some (int (if negative then -n else n), rest)
  else (Numeral.readMagnitude negative digits).map fun x => (real x, rest)

def words : List (Text × Json) := [
  ("null", null), ("true", bool true), ("false", bool false), ("NaN", real .nan),
  ("Infinity", real (.infinity false)), ("-Infinity", real (.infinity true))]

def readWord (cs : List CodePoint) : List (Text × Json) → Option (Json × List CodePoint)
  | [] => none
  | (w, v) :: rest =>
    if w.toList.isPrefixOf cs then some (v, cs.drop w.length) else readWord cs rest

mutual

def readValue : Nat → List CodePoint → Option (Json × List CodePoint)
  | 0, _ => none
  | fuel + 1, cs =>
    match cs with
    | '"' :: rest => (readText .text rest).map fun (s, rest) => (text (Text.ofList s), rest)
    | '[' :: rest =>
      match skipBlanks rest with
      | ']' :: rest => some (array [], rest)
      | rest => (readItems fuel rest).map fun (items, rest) => (array items, rest)
    | '\x7b' :: rest =>
      match skipBlanks rest with
      | '\x7d' :: rest => some (object [], rest)
      | rest => (readMembers fuel rest).map fun (members, rest) => (object members, rest)
    | _ =>
      match readWord cs words with
      | some r => some r
      | none => readNumber cs

def readItems : Nat → List CodePoint → Option (List Json × List CodePoint)
  | 0, _ => none
  | fuel + 1, cs => do
    let (v, rest) ← readValue fuel (skipBlanks cs)
    match skipBlanks rest with
    | ',' :: rest =>
      let (items, rest) ← readItems fuel rest
      return (v :: items, rest)
    | ']' :: rest => return ([v], rest)
    | _ => none

def readMembers : Nat → List CodePoint → Option (List (Text × Json) × List CodePoint)
  | 0, _ => none
  | fuel + 1, cs =>
    match skipBlanks cs with
    | '"' :: rest => do
      let (k, rest) ← readText .text rest
      match skipBlanks rest with
      | ':' :: rest =>
        let (v, rest) ← readValue fuel (skipBlanks rest)
        match skipBlanks rest with
        | ',' :: rest =>
          let (members, rest) ← readMembers fuel rest
          return ((Text.ofList k, v) :: members, rest)
        | '\x7d' :: rest => return ([(Text.ofList k, v)], rest)
        | _ => none
      | _ => none
    | _ => none

end

def read (s : Text) : Option Json := do
  let cs := s.toList
  let (v, rest) ← readValue (cs.length + 1) (skipBlanks cs)
  if skipBlanks rest = [] then some v else none

end NameCatalog.Json
