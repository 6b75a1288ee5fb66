import NameCatalog.CommandLine.Flag

/-!
# Reading arguments

The words of a scope are read from left to right: flags take effect as they come, other words fill
the arguments that the scope asks for, and what is left over is collected. The first word of the
program that is no flag names a command, to which all words behind it belong. Reading ends early
when help is asked for or when the words make no sense.

Release 3.11.8 of the argument reader is followed. Later ones keep a separator's text that is
attached to a flag, and leave over a letter that is no flag behind one that is.
-/

namespace NameCatalog.CommandLine

inductive Stop where
  | help (scope : Scope)
  | misuse (scope : Scope) (m : Misuse)
deriving DecidableEq, Repr

/-- What the words of a scope give. A flag that takes no value has the null value. -/
structure Given where
  flags : List (Flag × Value)
  arguments : List Value
  leftover : List Text
deriving Repr

namespace Given

def empty : Given := ⟨[], [], []⟩

def addLeftover (g : Given) (words : List Text) : Given :=
  { g with leftover := g.leftover ++ words }

def addArgument (g : Given) (v : Value) : Given :=
  { g with arguments := g.arguments ++ [v] }

def has (g : Given) (f : Flag) : Bool := g.flags.any (·.1 = f)

def valuesOf (g : Given) (f : Flag) : List Value :=
  g.flags.filterMap fun x => if x.1 = f then some x.2 else none

end Given

/-- The value in a text. The separator's text is none, attached to a flag or not, so that nothing is
left of it; releases behind 3.11.8 have it as a value when it is attached. -/
def valueOfText (text : Text) : Value :=
  if text = Word.separatorText then .list [] else .text text

/-- The flags in one word, and whether the next word was taken as the value of the last. -/
structure Cluster where
  flags : List (Flag × Value)
  takesNext : Bool
deriving Repr

namespace Cluster

def before (f : Flag) (c : Cluster) : Cluster := { c with flags := (f, .null) :: c.flags }

/-- A flag on its own, which may take the next word. -/
def ofFlag (f : Flag) (next : Option Text) : Except Misuse Cluster :=
  if f.takesValue then
    match next with
    | some value => .ok ⟨[(f, .text value)], true⟩
    | none => .error (.missingValue f)
  else .ok ⟨[(f, .null)], false⟩

/-- A flag and the text attached to it: its value, or behind a short flag the letters of further
short flags. Up to release 3.11.8 a letter that is none is misuse of the whole word, also behind the
flag that asks for help. -/
def ofAttached (scope : Scope) (next : Option Text) (isLong : Bool) (f : Flag) :
    List CodePoint → Except Misuse Cluster
  | [] => if f.takesValue then .ok ⟨[(f, .text "")], false⟩ else .error (.ignoredValue f "")
  | c :: cs =>
    let text := Text.ofList (c :: cs)
    if f.takesValue then .ok ⟨[(f, valueOfText text)], false⟩
    else
      match if isLong then none else scope.flag? (Text.ofList ['-', c]) with
      | none => .error (.ignoredValue f text)
      | some g =>
        if cs = [] then (ofFlag g next).map (before f)
        else (ofAttached scope next false g cs).map (before f)

def ofWord (scope : Scope) (next : Option Text) (f : Flag) (isLong : Bool) :
    Option (List CodePoint) → Except Misuse Cluster
  | none => ofFlag f next
  | some attached => ofAttached scope next isLong f attached

end Cluster

/-- Whether a flag admits a value; only texts are compared with its choices. -/
def Flag.admits (f : Flag) : Value → Bool
  | .text s => f.choices?.all fun choices => decide (s ∈ choices)
  | _ => true

def Given.take (scope : Scope) (g : Given) : List (Flag × Value) → Except Stop Given
  | [] => .ok g
  | (f, value) :: rest =>
    if f = .help then .error (.help scope)
    else if f.admits value then take scope { g with flags := g.flags ++ [(f, value)] } rest
    else .error (.misuse scope (.badValue f (value.text?.getD "")))

def nextArgument : List Word → Option Text
  | ⟨text, .argument⟩ :: _ => some text
  | _ => none

/-- What the word before was, as far as it matters for a separator. -/
inductive Place where
  | start
  | behindArgument
  | behindSeparator
deriving DecidableEq, Repr

/-- A separator's text is no argument, unless a separator stands right before it. -/
def argumentValue (place : Place) (text : Text) : Value :=
  if place = .behindSeparator then .text text else valueOfText text

/-- Reads the words of a command; `skip` when the first of them is taken already. -/
def readCommand (scope : Scope) (g : Given) (place : Place) (skip : Bool) :
    List Word → Except Stop Given
  | [] => .ok g
  | w :: rest =>
    if skip then readCommand scope g .start false rest
    else
      match w.kind with
      | .argument =>
        if g.arguments.length < scope.arguments.length then
          readCommand scope (g.addArgument (argumentValue place w.text)) .behindArgument false rest
        else readCommand scope (g.addLeftover [w.text]) .start false rest
      | .separator =>
        if place = .behindArgument then readCommand scope g .start false rest
        else if g.arguments.length < scope.arguments.length ∧ rest ≠ [] then
          readCommand scope g .behindSeparator false rest
        else readCommand scope (g.addLeftover [w.text]) .start false rest
      | .unknown => readCommand scope (g.addLeftover [w.text]) .start false rest
      | .flag f isLong attached =>
        match Cluster.ofWord scope (nextArgument rest) f isLong attached with
        | .error m => .error (.misuse scope m)
        | .ok cluster =>
          match g.take scope cluster.flags with
          | .error stop => .error stop
          | .ok g => readCommand scope g .start cluster.takesNext rest

def commandGiven (c : Command) (texts : List Text) : Except Stop Given := do
  let scope := Scope.command c
  let words ← (Word.ofTexts scope texts).mapError (.misuse scope)
  let g ← readCommand scope .empty .start false words
  match scope.arguments.drop g.arguments.length with
  | [] => return g
  | missing => .error (.misuse scope (.missingArguments missing))

/-- The words of the program up to its command, and the words from there on. -/
def readProgram (g : Given) : List Word → Except Stop (Given × Option (Text × List Text))
  | [] => .ok (g, none)
  | w :: rest =>
    match w.kind with
    | .argument => .ok (g, some (w.text, rest.map Word.text))
    | .separator =>
      if rest = [] then .ok (g.addLeftover [w.text], none)
      else .error (.misuse .program (.badCommand w.text))
    | .unknown => readProgram (g.addLeftover [w.text]) rest
    | .flag f isLong attached =>
      match Cluster.ofWord .program none f isLong attached with
      | .error m => .error (.misuse .program m)
      | .ok cluster =>
        match g.take .program cluster.flags with
        | .error stop => .error stop
        | .ok g => readProgram g rest

inductive Task where
  | help
  | render (package name style : Value)
  | catalog (files : List Value) (listing : Listing)
deriving Repr

structure Request where
  version : Bool
  verbose : Bool
  task : Task
deriving Repr

namespace Request

/-- The last value of a flag counts. -/
def styleOf (g : Given) : Value :=
  ((g.valuesOf .style).getLast?).getD (.text Style.java.word)

def listingOf (g : Given) : Listing :=
  ((g.valuesOf .format).getLast?.bind Listing.ofValue?).getD .text

def taskOf (g : Given) : Command → Task
  | .render => .render (g.arguments.getD 0 .null) (g.arguments.getD 1 .null) (styleOf g)
  | .catalog => .catalog (g.valuesOf .file) (listingOf g)

/-- The request in the words of a command line. Leftover words of the program come before those of
its command. -/
def ofArguments (argv : List Text) : Except Stop Request := do
  let words ← (Word.ofTexts .program argv).mapError (.misuse .program)
  let (g, command) ← readProgram .empty words
  let (task, leftover) ←
    match command with
    | none => .ok (.help, [])
    | some (name, texts) =>
      match Command.ofWord? name with
      | none => .error (.misuse .program (.badCommand name))
      | some c => (commandGiven c texts).map fun given => (taskOf given c, given.leftover)
  match g.leftover ++ leftover with
  | [] => return ⟨g.has .version, g.has .verbose, task⟩
  | words => .error (.misuse .program (.unrecognized words))

end Request

end NameCatalog.CommandLine
