import NameCatalog.Text.Blank

/-!
# Settings files

A settings file assigns texts to keys, one statement after the other. A value is bare up to the end
of its line, less a comment behind a blank, or quoted; a quoted value may go over several lines. A
statement that cannot be read is skipped to the end of its line. Afterwards references to other
variables are replaced.
-/

namespace NameCatalog.EnvFile

open Text

def isLineEnd (c : CodePoint) : Bool :=
  c == '\n' || c == '\r'

/-- A blank that does not end the line. -/
def isInnerBlank (c : CodePoint) : Bool :=
  isBlank c && !isLineEnd c

def skipInner (cs : List CodePoint) : List CodePoint := cs.dropWhile isInnerBlank

def skipExport (cs : List CodePoint) : List CodePoint :=
  let behind := cs.drop 6
  if (Text.toList "export").isPrefixOf cs && behind.head?.any isInnerBlank then skipInner behind
  else cs

def isKeyChar (c : CodePoint) : Bool :=
  !(c == '=' || c == '#' || isBlank c)

/-- A key; none where a comment stands in its place. Like all readers here it gives what it read and
what follows, or the place where it got stuck. -/
def readKey (cs : List CodePoint) :
    Except (List CodePoint) (Option (List CodePoint) × List CodePoint) :=
  match cs with
  | '#' :: _ => .ok (none, cs)
  | '\x27' :: quoted =>
    match quoted.takeWhile (· != .char '\x27'), quoted.dropWhile (· != .char '\x27') with
    | c :: key, _ :: rest => .ok (some (c :: key), rest)
    | _, _ => .error cs
  | _ =>
    match cs.takeWhile isKeyChar with
    | [] => .error cs
    | key => .ok (some key, cs.dropWhile isKeyChar)

/-- The text up to the next quote. A backslash takes the character behind it into the text, be it a
quote or another backslash. -/
def upToQuote (quote : CodePoint) : List CodePoint → Option (List CodePoint × List CodePoint)
  | [] => none
  | [c] => if c = quote then some ([], []) else none
  | c :: d :: cs =>
    if c = quote then some ([], d :: cs)
    else if c = '\\' then (upToQuote quote cs).map fun r => (c :: d :: r.1, r.2)
    else (upToQuote quote (d :: cs)).map fun r => (c :: r.1, r.2)

def singleEscapes : List (CodePoint × CodePoint) := [('\\', '\\'), ('\x27', '\x27')]

def doubleEscapes : List (CodePoint × CodePoint) := [
  ('\\', '\\'), ('\x27', '\x27'), ('"', '"'), ('a', '\x07'), ('b', '\x08'), ('f', '\x0c'),
  ('n', '\n'), ('r', '\r'), ('t', '\t'), ('v', '\x0b')]

/-- Replaces the known escapes and leaves all others as they are. -/
def unescape (escapes : List (CodePoint × CodePoint)) : List CodePoint → List CodePoint
  | [] => []
  | [c] => [c]
  | c :: d :: cs =>
    if c = '\\' then
      match escapes.lookup d with
      | some e => e :: unescape escapes cs
      | none => c :: unescape escapes (d :: cs)
    else c :: unescape escapes (d :: cs)

def readQuoted (quote : CodePoint) (escapes : List (CodePoint × CodePoint)) (cs : List CodePoint) :
    Except (List CodePoint) (List CodePoint × List CodePoint) :=
  match upToQuote quote cs with
  | some (content, rest) => .ok (unescape escapes content, rest)
  | none => .error (quote :: cs)

/-- Drops a comment, which starts behind a blank. -/
def dropComment (behindBlank : Bool) : List CodePoint → List CodePoint
  | [] => []
  | c :: cs => if c == '#' && behindBlank then [] else c :: dropComment (isBlank c) cs

/-- A value; `behindBlank` says whether blanks stand between it and the equals sign. -/
def readValue (behindBlank : Bool) (cs : List CodePoint) :
    Except (List CodePoint) (List CodePoint × List CodePoint) :=
  match cs with
  | '\x27' :: rest => readQuoted '\x27' singleEscapes rest
  | '"' :: rest => readQuoted '"' doubleEscapes rest
  | _ =>
    .ok (trimBlanksEnd (dropComment behindBlank (cs.takeWhile (!isLineEnd ·))),
      cs.dropWhile (!isLineEnd ·))

def readAssigned (cs : List CodePoint) :
    Except (List CodePoint) (Option (List CodePoint) × List CodePoint) :=
  match cs with
  | '=' :: rest =>
    (readValue (rest.head?.any isInnerBlank) (skipInner rest)).map fun r => (some r.1, r.2)
  | _ => .ok (none, cs)

/-- The end of a line, perhaps with a comment before it. -/
def readEnd (cs : List CodePoint) : Except (List CodePoint) (List CodePoint) :=
  let rest :=
    match skipInner cs with
    | '#' :: comment => comment.dropWhile (!isLineEnd ·)
    | rest => rest
  match rest with
  | [] => .ok []
  | c :: rest => if isLineEnd c then .ok rest else .error cs

/-- What is left out when a statement cannot be read. -/
def skipLine (cs : List CodePoint) : List CodePoint :=
  (cs.dropWhile (!isLineEnd ·)).drop 1

inductive Statement where
  | assign (key : Text) (value : Option Text)
  | comment
  | unreadable
deriving DecidableEq, Repr

/-- A statement whose first character is no blank. -/
def readStatement (cs : List CodePoint) : Except (List CodePoint) (Statement × List CodePoint) := do
  let (key, rest) ← readKey (skipExport cs)
  let (value, rest) ← readAssigned (skipInner rest)
  let rest ← readEnd rest
  match key with
  | some key => return (.assign (Text.ofList key) (value.map Text.ofList), rest)
  | none => return (.comment, rest)

/-- The statements, each with the number of the line on which the one before it ended. -/
def statementsFrom : Nat → Nat → List CodePoint → List (Nat × Statement)
  | 0, _, _ => []
  | fuel + 1, line, cs =>
    match cs.dropWhile isBlank with
    | [] => []
    | start =>
      let (statement, rest) :=
        match readStatement start with
        | .ok r => r
        | .error stuck => (.unreadable, skipLine stuck)
      (line, statement) ::
        statementsFrom fuel (line + (cs.count (.char '\n') - rest.count (.char '\n'))) rest

/-- Each statement takes a character at least. -/
def statements (cs : List CodePoint) : List (Nat × Statement) :=
  statementsFrom cs.length 1 cs

/-- The first lines of the statements that cannot be read. -/
def unreadable (ss : List (Nat × Statement)) : List Nat :=
  ss.filterMap fun s => if s.2 = .unreadable then some s.1 else none

/-- A reference behind its opening: the name, what stands in for it, and the rest. -/
def readReference (cs : List CodePoint) : Option (Text × Option Text × List CodePoint) :=
  let name := Text.ofList (cs.takeWhile fun c : CodePoint => !(c == '\x7d' || c == ':'))
  match cs.dropWhile fun c : CodePoint => !(c == '\x7d' || c == ':') with
  | '\x7d' :: rest => some (name, none, rest)
  | ':' :: '-' :: cs =>
    match cs.dropWhile (· != .char '\x7d') with
    | _ :: rest => some (name, some (Text.ofList (cs.takeWhile (· != .char '\x7d'))), rest)
    | [] => none
  | _ => none

theorem length_dropWhile_le {α : Type} (p : α → Bool) (xs : List α) :
    (xs.dropWhile p).length ≤ xs.length := by
  induction xs with
  | nil => simp
  | cons x xs ih =>
      rw [List.dropWhile_cons]
      split
      · exact Nat.le_succ_of_le ih
      · exact Nat.le_refl _

theorem length_readReference {cs rest : List CodePoint} {name : Text} {standIn : Option Text}
    (h : readReference cs = some (name, standIn, rest)) : rest.length < cs.length := by
  have hle := length_dropWhile_le (fun c : CodePoint => !(c == '\x7d' || c == ':')) cs
  unfold readReference at h
  split at h
  · next r heq =>
      rw [heq] at hle
      simp only [Option.some.injEq, Prod.mk.injEq] at h
      obtain ⟨-, -, rfl⟩ := h
      simp only [List.length_cons] at hle
      omega
  · next r heq =>
      rw [heq] at hle
      have hle' := length_dropWhile_le (· != .char '\x7d') r
      split at h
      · next x r' heq' =>
          rw [heq'] at hle'
          simp only [Option.some.injEq, Prod.mk.injEq] at h
          obtain ⟨-, -, rfl⟩ := h
          simp only [List.length_cons] at hle hle'
          omega
      · simp at h
  · simp at h

def expand (value? : Text → Option (Option Text)) (cs : List CodePoint) : List CodePoint :=
  match cs with
  | [] => []
  | '$' :: '\x7b' :: inner =>
    match h : readReference inner with
    | some (name, standIn, rest) =>
      let text :=
        match value? name with
        | some value => value.getD ""
        | none => standIn.getD ""
      have := length_readReference h
      text.toList ++ expand value? rest
    | none => '$' :: expand value? ('\x7b' :: inner)
  | c :: cs => c :: expand value? cs
termination_by cs.length

/-- A variable and its value; one without an equals sign has none. -/
abbrev Variable := Text × Option Text

/-- A later value of the same name keeps the place of the first. -/
def put (vars : List Variable) (name : Text) (value : Option Text) : List Variable :=
  match vars with
  | [] => [(name, value)]
  | v :: rest => if v.1 = name then (name, value) :: rest else v :: put rest name value

/-- Assigns in order. References look among the earlier variables, then in the environment. -/
def assignAll (environment : List (Text × Text)) (vars : List Variable) :
    List Statement → List Variable
  | [] => vars
  | .assign key value :: rest =>
    let value? (name : Text) : Option (Option Text) :=
      match vars.lookup name with
      | some value => some value
      | none => (environment.reverse.lookup name).map some
    let expanded := value.map fun text => Text.ofList (expand value? text.toList)
    assignAll environment (put vars key expanded) rest
  | _ :: rest => assignAll environment vars rest

def variablesOf (environment : List (Text × Text)) (ss : List (Nat × Statement)) :
    List Variable :=
  assignAll environment [] (ss.map Prod.snd)

end NameCatalog.EnvFile
