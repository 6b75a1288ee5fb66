import NameCatalog.Text.Pieces
import NameCatalog.Yaml.Timestamp

/-!
# Tags

The type of a node: given by a tag, or for a plain scalar found from its text (YAML 1.1). The
patterns below exclude each other, so their order does not matter.
-/

namespace NameCatalog.Yaml

inductive Tag where
  | null
  | bool
  | int
  | real
  | binary
  | timestamp
  | text
  | sequence
  | mapping
  | set
  | orderedMap
  | pairs
  | merge
  | default
  | unknown
deriving DecidableEq, Repr

namespace Tag

def isCollection : Tag → Bool
  | sequence => true
  | mapping => true
  | set => true
  | orderedMap => true
  | pairs => true
  | _ => false

def standard : List (Text × Tag) := [
  ("null", null), ("bool", bool), ("int", int), ("float", real), ("binary", binary),
  ("timestamp", timestamp), ("str", text), ("seq", sequence), ("map", mapping), ("set", set),
  ("omap", orderedMap), ("pairs", pairs), ("merge", merge), ("value", default)]

def standardStart : Text := "tag:yaml.org,2002:"

def ofName (name : Text) : Tag :=
  ((standard.find? fun entry => standardStart ++ entry.1 = name).map Prod.snd).getD unknown

def nullWords : List Text := ["", "~", "null", "Null", "NULL"]

def trueWords : List Text := ["yes", "Yes", "YES", "true", "True", "TRUE", "on", "On", "ON"]

def falseWords : List Text :=
  ["no", "No", "NO", "false", "False", "FALSE", "off", "Off", "OFF"]

def isDigitOrMark (c : CodePoint) : Bool := c.isDigit || c == '_'

def dropSign : List CodePoint → List CodePoint
  | '+' :: cs => cs
  | '-' :: cs => cs
  | cs => cs

/-- Digits below sixty: one, or two of which the first is at most five. -/
def isSixtieth : List CodePoint → Bool
  | [d] => d.isDigit
  | [t, d] => decide ('0' ≤ t) && decide (t ≤ '5') && d.isDigit
  | _ => false

/-- Groups of sixtieths, each behind a colon. -/
def areSixtieths (cs : List CodePoint) : Bool :=
  match Text.pieces ':' cs with
  | [] :: groups => !groups.isEmpty && groups.all isSixtieth
  | _ => false

def nonemptyOf (p : CodePoint → Bool) (cs : List CodePoint) : Bool :=
  !cs.isEmpty && cs.all p

def isInt (cs : List CodePoint) : Bool :=
  match dropSign cs with
  | ['0'] => true
  | '0' :: 'b' :: rest => nonemptyOf (fun c => c == '0' || c == '1' || c == '_') rest
  | '0' :: 'x' :: rest =>
    nonemptyOf (fun c => isDigitOrMark c || ('a' ≤ c && c ≤ 'f') || ('A' ≤ c && c ≤ 'F')) rest
  | '0' :: rest => nonemptyOf (fun c => ('0' ≤ c && c ≤ '7') || c == '_') rest
  | c :: rest =>
    let tail := rest.dropWhile isDigitOrMark
    c.isDigit && (tail.isEmpty || areSixtieths tail)
  | [] => false

/-- Nothing, or an exponent with a sign. -/
def isExponent : List CodePoint → Bool
  | [] => true
  | e :: sign :: ds => (e == 'e' || e == 'E') && (sign == '+' || sign == '-') &&
      nonemptyOf CodePoint.isDigit ds
  | _ => false

def isFraction (cs : List CodePoint) : Bool :=
  isExponent (cs.dropWhile isDigitOrMark)

def isReal (cs : List CodePoint) : Bool :=
  let unsigned := dropSign cs
  ([".inf", ".Inf", ".INF"] : List Text).contains (Text.ofList unsigned) ||
    ([".nan", ".NaN", ".NAN"] : List Text).contains (Text.ofList cs) ||
    (match cs with
      | '.' :: d :: rest => d.isDigit && isFraction rest
      | _ => false) ||
    (match unsigned with
      | d :: rest =>
        d.isDigit &&
          (match rest.dropWhile isDigitOrMark with
            | '.' :: fraction => isFraction fraction
            | groups =>
              areSixtieths (groups.takeWhile (· != .char '.')) &&
                (match groups.dropWhile (· != .char '.') with
                  | _ :: fraction => fraction.all isDigitOrMark
                  | [] => false))
      | [] => false)

def isTimestamp (cs : List CodePoint) : Bool :=
  match Timestamp.ofChars? cs with
  | some t => t.isPlain
  | none => false

/-- The marks of tags, anchors and aliases by themselves are reserved. -/
def reservedWords : List Text := ["!", "&", "*"]

def ofWord (s : Text) : Tag :=
  let cs := s.toList
  if nullWords.contains s then null
  else if trueWords.contains s || falseWords.contains s then bool
  else if s = "<<" then merge
  else if s = "=" then default
  else if reservedWords.contains s then unknown
  else if isReal cs then real
  else if isInt cs then int
  else if isTimestamp cs then timestamp
  else text

/-- One line feed at the end does not keep a text from being recognised. -/
def ofPlain (s : Text) : Tag :=
  match s.toList.reverse with
  | '\n' :: c :: rest => ofWord (Text.ofList (c :: rest).reverse)
  | ['\n'] => text
  | _ => ofWord s

end Tag

end NameCatalog.Yaml
