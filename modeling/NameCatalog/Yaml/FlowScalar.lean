import NameCatalog.Text.Hex
import NameCatalog.Text.Surrogate
import NameCatalog.Yaml.Cursor
import NameCatalog.Yaml.Fault

/-!
# Scalars written in line

Plain, single-quoted and double-quoted scalars may run over several lines. Blanks before a line end
and at the start of a line do not count; a single line end becomes a space, and of several the first
is dropped. A gap between words is collected until the next word shows what it stands for.
-/

namespace NameCatalog.Yaml

/-- A line end, if it counts, and those that follow it. -/
def folded (first : Option CodePoint) (more : List CodePoint) : List CodePoint :=
  match first with
  | none => more
  | some b => if b ≠ '\n' then b :: more else if more = [] then [' '] else more

namespace Plain

inductive Gap where
  | none
  | spaces (text : List CodePoint)
  | broken (first : CodePoint) (more : List CodePoint)

/-- The text read, whether the line ended behind it, and what follows. -/
structure Result where
  text : List CodePoint
  crossed : Bool
  cursor : Cursor

def Result.prepend (r : Result) (cs : List CodePoint) : Result :=
  { r with text := cs ++ r.text }

def isFlowMark (c : CodePoint) : Bool :=
  c == ',' || c == '?' || c == '[' || c == ']' || c == '\x7b' || c == '\x7d'

/-- Whether a colon before `rest` ends the scalar. -/
def endsKey (inFlow : Bool) (rest : List CodePoint) : Bool :=
  atBlank rest || (inFlow &&
    match rest with
    | c :: _ => c != '?' && isFlowMark c
    | [] => false)

def endsWord (inFlow : Bool) (c : CodePoint) (rest : List CodePoint) : Bool :=
  isSpace c || isBreak c || (c == ':' && endsKey inFlow rest) || (inFlow && isFlowMark c)

/-- Reads on from inside the scalar. A word after a line end has to stand at column `indent` or
further right, unless a flow collection is open. -/
def read (inFlow : Bool) (indent : Int) : Gap → Position → List CodePoint → Result
  | gap, p, [] => ⟨[], match gap with | .broken _ _ => true | _ => false, p, []⟩
  | .none, p, c :: rest =>
    if c = ' ' then read inFlow indent (.spaces [' ']) (p.advance c) rest
    else if isBreak c then
      if atDocumentMark rest then ⟨[], true, p.advance c, rest⟩
      else read inFlow indent (.broken (breakText c) []) (p.advance c) rest
    else if endsWord inFlow c rest then ⟨[], false, p, c :: rest⟩
    else (read inFlow indent .none (p.advance c) rest).prepend [c]
  | .spaces text, p, c :: rest =>
    if c = ' ' then read inFlow indent (.spaces (' ' :: text)) (p.advance c) rest
    else if isBreak c then
      if atDocumentMark rest then ⟨[], true, p.advance c, rest⟩
      else read inFlow indent (.broken (breakText c) []) (p.advance c) rest
    else if c = '#' ∨ endsWord inFlow c rest ∨ (!inFlow ∧ (p.column : Int) < indent) then
      ⟨[], false, p, c :: rest⟩
    else (read inFlow indent .none (p.advance c) rest).prepend (text ++ [c])
  | .broken first more, p, c :: rest =>
    if c = ' ' then read inFlow indent (.broken first more) (p.advance c) rest
    else if isBreak c then
      if atDocumentMark rest then ⟨[], true, p.advance c, rest⟩
      else read inFlow indent (.broken first (more ++ [breakText c])) (p.advance c) rest
    else if c = '#' ∨ endsWord inFlow c rest ∨ (!inFlow ∧ (p.column : Int) < indent) then
      ⟨[], true, p, c :: rest⟩
    else
      (read inFlow indent .none (p.advance c) rest).prepend (folded (some first) more ++ [c])

end Plain

namespace Quoted

/-- Where the reader stands: in the text, after blanks, after line ends, before the second of two
quotes, or inside an escape. -/
inductive State where
  | text
  | spaces (run : List CodePoint)
  | broken (first : Option CodePoint) (more : List CodePoint)
  | quote
  | escape
  | hex (remaining : Nat) (code : Nat)

/-- What one character inside the quotes does: it adds text and goes on, adds text and closes the
scalar, or is an error. -/
inductive Move where
  | go (added : List CodePoint) (next : State)
  | close (added : List CodePoint)
  | fail (f : Fault)

def Move.prepend (m : Move) (cs : List CodePoint) : Move :=
  match m with
  | .go added next => .go (cs ++ added) next
  | .close added => .close (cs ++ added)
  | .fail f => .fail f

def escapes : List (CodePoint × CodePoint) := [
  ('0', '\x00'), ('a', '\x07'), ('b', '\x08'), ('t', '\t'), ('\t', '\t'), ('n', '\n'),
  ('v', '\x0b'), ('f', '\x0c'), ('r', '\r'), ('e', '\x1b'), (' ', ' '), ('"', '"'), ('\\', '\\'),
  ('/', '/'), ('N', '\x85'), ('_', '\xa0'), ('L', '\u2028'), ('P', '\u2029')]

def codeWidths : List (CodePoint × Nat) := [('x', 2), ('u', 4), ('U', 8)]

/-- A code may be a lone surrogate; one beyond all characters is an error. -/
def charOfCode (n : Nat) : Except Fault CodePoint :=
  if 0x7fffffff < n then .error .hugeCodePoint
  else if 0x10ffff < n then .error .codePoint
  else .ok (CodePoint.ofNat n)

/-- A line may not begin with a document mark. -/
def breakMove (first : Option CodePoint) (more rest : List CodePoint) : Move :=
  if atDocumentMark rest then .fail .invalid else .go [] (.broken first more)

def atQuote (double : Bool) (c : CodePoint) : Bool :=
  if double then c == '"' else c == '\x27'

/-- A character of the text itself. Between single quotes only the doubled quote is special. -/
def textMove (double : Bool) (c : CodePoint) (rest : List CodePoint) : Move :=
  if atQuote double c then
    if !double && rest.head? == some c then .go [c] .quote else .close []
  else if double && c == '\\' then .go [] .escape
  else if isSpace c then .go [] (.spaces [c])
  else if isBreak c then breakMove (some (breakText c)) [] rest
  else .go [c] .text

def escapeMove (c : CodePoint) (rest : List CodePoint) : Move :=
  match escapes.lookup c with
  | some e => .go [e] .text
  | none =>
    match codeWidths.lookup c with
    | some width => .go [] (.hex width 0)
    | none => if isBreak c then breakMove none [] rest else .fail .invalid

def hexMove (remaining code : Nat) (c : CodePoint) : Move :=
  match Text.hexValue? c with
  | none => .fail .invalid
  | some d =>
    if 1 < remaining then .go [] (.hex (remaining - 1) (code * 16 + d))
    else
      match charOfCode (code * 16 + d) with
      | .ok c => .go [c] .text
      | .error f => .fail f

def move (double : Bool) (state : State) (c : CodePoint) (rest : List CodePoint) : Move :=
  match state with
  | .text => textMove double c rest
  | .spaces run =>
    if isSpace c then .go [] (.spaces (run ++ [c]))
    else if isBreak c then breakMove (some (breakText c)) [] rest
    else (textMove double c rest).prepend run
  | .broken first more =>
    if isSpace c then .go [] (.broken first more)
    else if isBreak c then breakMove first (more ++ [breakText c]) rest
    else (textMove double c rest).prepend (folded first more)
  | .quote => .go [] .text
  | .escape => escapeMove c rest
  | .hex remaining code => hexMove remaining code c

/-- The text up to the closing quote, and what follows the quote. -/
def read (double : Bool) :
    State → Position → List CodePoint → Except Fault (List CodePoint × Cursor)
  | _, _, [] => .error .invalid
  | state, p, c :: rest =>
    match move double state c rest with
    | .go added next =>
      match read double next (p.advance c) rest with
      | .ok (text, cursor) => .ok (added ++ text, cursor)
      | .error f => .error f
    | .close added => .ok (added, ⟨p.advance c, rest⟩)
    | .fail f => .error f

end Quoted

end NameCatalog.Yaml
