import NameCatalog.Yaml.BlockScalar
import NameCatalog.Yaml.FlowScalar
import NameCatalog.Yaml.Property

/-!
# From text to tokens

The lexer reads one token after the other. It knows the columns of the open block collections, and
for each open flow collection (and the blocks around them) where a key without a `?` mark may have
begun: when a `:` then turns up on the same line, a key token is put in front of what was read
since, and with it the start of a block mapping when the key stands further right than the
collections that are open.
-/

namespace NameCatalog.Yaml

/-- A place where a key may have begun, after `count` tokens. It is `required` when nothing else
could stand there. -/
structure KeyStart where
  count : Nat
  required : Bool
  position : Position
deriving DecidableEq, Repr

/-- `tokens` has the latest token first, and `count` is its length. `indent` is the column of the
innermost block collection, `-1` outside of all; `keyStart` belongs to the innermost flow
collection and `outerKeys` to those around it. -/
structure Lexer where
  cursor : Cursor
  indent : Int
  indents : List Int
  keyAllowed : Bool
  keyStart : Option KeyStart
  outerKeys : List (Option KeyStart)
  tokens : List Token
  count : Nat
deriving Repr

namespace Lexer

/-- A byte order mark at the very start is skipped. -/
def start (cs : List CodePoint) : Lexer where
  cursor := if cs.head? = some (.char '\ufeff') then (Cursor.mk .start cs).drop 1 else ⟨.start, cs⟩
  indent := -1
  indents := []
  keyAllowed := true
  keyStart := none
  outerKeys := []
  tokens := []
  count := 0

def inFlow (l : Lexer) : Bool := !l.outerKeys.isEmpty

def column (l : Lexer) : Int := l.cursor.column

def emit (l : Lexer) (t : Token) : Lexer :=
  { l with tokens := t :: l.tokens, count := l.count + 1 }

def moveTo (l : Lexer) (c : Cursor) : Lexer := { l with cursor := c }

def skip (l : Lexer) (n : Nat) : Lexer := l.moveTo (l.cursor.drop n)

def allowKey (l : Lexer) (allowed : Bool) : Lexer := { l with keyAllowed := allowed }

/-- Spaces, comments and line ends; says whether a line ended. -/
def skipGaps (inComment : Bool) (p : Position) : List CodePoint → Bool × Cursor
  | [] => (false, ⟨p, []⟩)
  | c :: rest =>
    if isBreak c then (true, (skipGaps false (p.advance c) rest).2)
    else if inComment || c == ' ' then skipGaps inComment (p.advance c) rest
    else if c == '#' then skipGaps true (p.advance c) rest
    else (false, ⟨p, c :: rest⟩)

/-- Outside of flow collections a key may begin after a line end. -/
def toNextToken (l : Lexer) : Lexer :=
  let (crossed, cursor) := skipGaps false l.cursor.position l.cursor.chars
  { l with cursor := cursor, keyAllowed := l.keyAllowed || (crossed && !l.inFlow) }

/-- A key ends on its line and within 1024 characters. -/
def isFresh (p : Position) (k : KeyStart) : Bool :=
  k.position.line == p.line && decide (p.index ≤ k.position.index + 1024)

def fresh (p : Position) : Option KeyStart → Except Fault (Option KeyStart)
  | none => .ok none
  | some k =>
    if isFresh p k then .ok (some k)
    else if k.required then .error .invalid
    else .ok none

def dropStaleKeys (l : Lexer) : Except Fault Lexer := do
  let outer ← l.outerKeys.mapM (fresh l.cursor.position)
  let key ← fresh l.cursor.position l.keyStart
  return { l with keyStart := key, outerKeys := outer }

def dropKey (l : Lexer) : Except Fault Lexer :=
  match l.keyStart with
  | some k => if k.required then .error .invalid else .ok { l with keyStart := none }
  | none => .ok l

def noteKey (l : Lexer) : Except Fault Lexer :=
  if l.keyAllowed then do
    let required := !l.inFlow && l.indent == l.column
    let l ← l.dropKey
    return { l with keyStart := some ⟨l.count, required, l.cursor.position⟩ }
  else .ok l

/-- Closes the block collections that stand right of the column. -/
def closeBlocks (column : Int) (l : Lexer) : List Int → Lexer
  | [] => l
  | outer :: rest =>
    if column < l.indent then
      closeBlocks column { l.emit .blockEnd with indent := outer, indents := rest } rest
    else l

/-- Flow collections are not closed by indentation. -/
def unwind (l : Lexer) (column : Int) : Lexer :=
  if l.inFlow then l else closeBlocks column l l.indents

/-- Opens a block collection at the column, unless one is open there or further right. -/
def openBlock (l : Lexer) (column : Int) : Bool × Lexer :=
  if l.indent < column then
    (true, { l with indent := column, indents := l.indent :: l.indents })
  else (false, l)

def openBlockWith (l : Lexer) (t : Token) : Lexer :=
  let (opened, l) := l.openBlock l.column
  if opened then l.emit t else l

/-- Puts tokens in front of all that came after the first `count`. -/
def insertAt (l : Lexer) (count : Nat) (ts : List Token) : Lexer :=
  let (since, before) := l.tokens.splitAt (l.count - count)
  { l with tokens := since ++ ts.reverse ++ before, count := l.count + ts.length }

def readEnd (l : Lexer) : Except Fault Lexer := do
  let l ← (l.unwind (-1)).dropKey
  return (l.allowKey false).emit .streamEnd

def readDirective (l : Lexer) : Except Fault Lexer := do
  let l ← (l.unwind (-1)).dropKey
  let (d, next) ← Property.directive (l.cursor.drop 1)
  return ((l.allowKey false).moveTo next).emit (.directive d)

def readDocumentMark (l : Lexer) (t : Token) : Except Fault Lexer := do
  let l ← (l.unwind (-1)).dropKey
  return ((l.allowKey false).skip 3).emit t

def readFlowStart (l : Lexer) (t : Token) : Except Fault Lexer := do
  let l ← l.noteKey
  let l := { l with keyStart := none, outerKeys := l.keyStart :: l.outerKeys }
  return ((l.allowKey true).skip 1).emit t

/-- A closing bracket with nothing to close is refused. -/
def readFlowEnd (l : Lexer) (t : Token) : Except Fault Lexer := do
  let l ← l.dropKey
  match l.outerKeys with
  | [] => throw .invalid
  | key :: outer =>
    let l := { l with keyStart := key, outerKeys := outer }
    return ((l.allowKey false).skip 1).emit t

def readFlowEntry (l : Lexer) : Except Fault Lexer := do
  let l ← (l.allowKey true).dropKey
  return (l.skip 1).emit .flowEntry

def readBlockEntry (l : Lexer) : Except Fault Lexer := do
  if !l.inFlow && !l.keyAllowed then throw .invalid
  let l := if l.inFlow then l else l.openBlockWith .blockSequenceStart
  let l ← (l.allowKey true).dropKey
  return (l.skip 1).emit .blockEntry

def readKey (l : Lexer) : Except Fault Lexer := do
  if !l.inFlow && !l.keyAllowed then throw .invalid
  let l := if l.inFlow then l else l.openBlockWith .blockMappingStart
  let l ← (l.allowKey !l.inFlow).dropKey
  return (l.skip 1).emit .key

def readValueOf (l : Lexer) (k : KeyStart) : Lexer :=
  let l := { l with keyStart := none }
  let (opened, l) := if l.inFlow then (false, l) else l.openBlock k.position.column
  let l := l.insertAt k.count (if opened then [.blockMappingStart, .key] else [.key])
  ((l.allowKey false).skip 1).emit .value

def readValue (l : Lexer) : Except Fault Lexer :=
  match l.keyStart with
  | some k => .ok (l.readValueOf k)
  | none => do
    if !l.inFlow && !l.keyAllowed then throw .invalid
    let l := if l.inFlow then l else l.openBlockWith .blockMappingStart
    return (((l.allowKey !l.inFlow).skip 1).emit .value)

def readNamed (l : Lexer) (make : Text → Token) : Except Fault Lexer := do
  let l ← l.noteKey
  let (word, next) ← Property.name (l.cursor.drop 1)
  return ((l.allowKey false).moveTo next).emit (make word)

def readTag (l : Lexer) : Except Fault Lexer := do
  let l ← l.noteKey
  let ((handle, suffix), next) ← Property.tag l.cursor
  return ((l.allowKey false).moveTo next).emit (.tag handle suffix)

def readBlockScalar (l : Lexer) (folding : Bool) : Except Fault Lexer := do
  let l ← l.dropKey
  let (text, next) ← Block.read folding l.indent (l.cursor.drop 1)
  return ((l.allowKey true).moveTo next).emit (.scalar (Text.ofList text) false)

def readQuoted (l : Lexer) (double : Bool) : Except Fault Lexer := do
  let l ← l.noteKey
  let inside := l.cursor.drop 1
  let (text, next) ← Quoted.read double .text inside.position inside.chars
  return ((l.allowKey false).moveTo next).emit (.scalar (Text.ofList text) false)

def readPlain (l : Lexer) : Except Fault Lexer := do
  let l ← l.noteKey
  let r := Plain.read l.inFlow (l.indent + 1) .none l.cursor.position l.cursor.chars
  return ((l.allowKey r.crossed).moveTo r.cursor).emit (.scalar (Text.ofList r.text) true)

/-- Whether a plain scalar may begin with `c` before `rest`. -/
def startsPlain (inFlow : Bool) (c : CodePoint) (rest : List CodePoint) : Bool :=
  !(isSpace c || isBreak c || (Text.toList "-?:,[]\x7b\x7d#&*!|>\x27\"%@\x60").contains c) ||
    (!atBlank rest && (c == '-' || (!inFlow && (c == '?' || c == ':'))))

/-- Reads the token that begins with `c` before `rest`. -/
def readToken (l : Lexer) (c : CodePoint) (rest : List CodePoint) : Except Fault Lexer :=
  let marked := l.cursor.column == 0 && atDocumentMark (c :: rest)
  if c = '%' ∧ l.cursor.column = 0 then l.readDirective
  else if c = '-' ∧ marked then l.readDocumentMark .documentStart
  else if c = '.' ∧ marked then l.readDocumentMark .documentEnd
  else if c = '[' then l.readFlowStart .flowSequenceStart
  else if c = '\x7b' then l.readFlowStart .flowMappingStart
  else if c = ']' then l.readFlowEnd .flowSequenceEnd
  else if c = '\x7d' then l.readFlowEnd .flowMappingEnd
  else if c = ',' then l.readFlowEntry
  else if c = '-' ∧ atBlank rest then l.readBlockEntry
  else if c = '?' ∧ (l.inFlow ∨ atBlank rest) then l.readKey
  else if c = ':' ∧ (l.inFlow ∨ atBlank rest) then l.readValue
  else if c = '*' then l.readNamed .aliasOf
  else if c = '&' then l.readNamed .anchor
  else if c = '!' then l.readTag
  else if c = '|' ∧ !l.inFlow then l.readBlockScalar false
  else if c = '>' ∧ !l.inFlow then l.readBlockScalar true
  else if c = '\x27' then l.readQuoted false
  else if c = '"' then l.readQuoted true
  else if startsPlain l.inFlow c rest then l.readPlain
  else .error .invalid

/-- One more token, or the end; the flag says that reading goes on. -/
def next (l : Lexer) : Except Fault (Lexer × Bool) := do
  let l ← l.toNextToken.dropStaleKeys
  let l := l.unwind l.column
  match l.cursor.chars with
  | [] => return (← l.readEnd, false)
  | c :: rest => return (← l.readToken c rest, true)

/-- How many tokens are settled: from a place on where a key may still turn out to have begun, they
are not. -/
def settled (l : Lexer) : Nat :=
  ((l.keyStart :: l.outerKeys).filterMap fun key =>
    (key.filter (isFresh l.cursor.position)).map KeyStart.count).foldl min l.count

/-- The settled tokens and a fault, which makes itself known as soon as one more is asked for. -/
def stop (l : Lexer) (f : Fault) : List Token :=
  (Token.fault f :: l.tokens.drop (l.count - l.settled)).reverse

/-- Reads on to the end or the first fault. Every step but the last takes a character. -/
def run : Nat → Lexer → List Token
  | 0, l => l.stop .invalid
  | fuel + 1, l =>
    match l.next with
    | .error f => l.stop f
    | .ok (l, true) => run fuel l
    | .ok (l, false) => l.tokens.reverse

end Lexer

def Token.ofText (cs : List CodePoint) : List Token :=
  Lexer.run (cs.length + 1) (Lexer.start cs)

end NameCatalog.Yaml
