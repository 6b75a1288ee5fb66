import NameCatalog.Name.Style
import NameCatalog.Text.DecimalDigit

/-!
# Commands and flags

The program has two commands. A scope is the program itself or one of its commands; each scope
takes flags of its own. Of a long flag any start will do that fits no other flag of the scope, and
its value may follow an equals sign; a value may also follow a short flag directly.
-/

namespace NameCatalog.CommandLine

inductive Command where
  | render
  | catalog
deriving DecidableEq, Repr

namespace Command

def word : Command → Text
  | render => "render"
  | catalog => "catalog"

def all : List Command := [render, catalog]

def ofWord? (s : Text) : Option Command :=
  all.find? (·.word = s)

@[simp] theorem ofWord?_word (c : Command) : ofWord? c.word = some c := by
  cases c <;> decide

end Command

/-- How a render answers: in one style, or in all forms at once. -/
inductive Form where
  | one (style : Style)
  | all
deriving DecidableEq, Repr

namespace Form

def word : Form → Text
  | one style => style.word
  | all => "all"

def every : List Form := Style.all.map one ++ [all]

def ofWord? (s : Text) : Option Form :=
  every.find? (·.word = s)

/-- Only the word of a form stands for it. -/
def ofValue? : Value → Option Form
  | .text s => ofWord? s
  | _ => none

@[simp] theorem ofWord?_word (form : Form) : ofWord? form.word = some form := by
  rcases form with style | _
  · cases style <;> decide
  · decide

end Form

inductive Listing where
  | text
  | json
deriving DecidableEq, Repr

namespace Listing

def word : Listing → Text
  | text => "text"
  | json => "json"

def all : List Listing := [text, json]

def ofWord? (s : Text) : Option Listing :=
  all.find? (·.word = s)

def ofValue? : Value → Option Listing
  | .text s => ofWord? s
  | _ => none

@[simp] theorem ofWord?_word (listing : Listing) : ofWord? listing.word = some listing := by
  cases listing <;> decide

end Listing

inductive Flag where
  | help
  | version
  | verbose
  | style
  | file
  | format
deriving DecidableEq, Repr

namespace Flag

def spellings : Flag → List Text
  | help => ["-h", "--help"]
  | version => ["--version"]
  | verbose => ["--verbose", "-v"]
  | style => ["--style", "-s"]
  | file => ["--file", "-f"]
  | format => ["--format"]

def takesValue : Flag → Bool
  | style => true
  | file => true
  | format => true
  | _ => false

/-- The values that a flag admits; none when it admits any. -/
def choices? : Flag → Option (List Text)
  | style => some (Form.every.map Form.word)
  | format => some (Listing.all.map Listing.word)
  | _ => none

def label (f : Flag) : Text := Text.join "/" f.spellings

end Flag

inductive Scope where
  | program
  | command (c : Command)
deriving DecidableEq, Repr

namespace Scope

def flags : Scope → List Flag
  | program => [.help, .version, .verbose]
  | command .render => [.help, .style]
  | command .catalog => [.help, .file, .format]

def arguments : Scope → List Text
  | command .render => ["package", "name"]
  | _ => []

def spellings (scope : Scope) : List (Text × Flag) :=
  scope.flags.flatMap fun f => f.spellings.map (·, f)

def flag? (scope : Scope) (spelling : Text) : Option Flag :=
  scope.spellings.lookup spelling

end Scope

inductive Misuse where
  | ambiguous (word : Text) (spellings : List Text)
  | ignoredValue (f : Flag) (value : Text)
  | missingValue (f : Flag)
  | badValue (f : Flag) (value : Text)
  | badCommand (word : Text)
  | missingArguments (names : List Text)
  | unrecognized (words : List Text)
deriving DecidableEq, Repr

namespace Misuse

def choiceMessage (value : Text) (choices : List Text) : Text :=
  "invalid choice: " ++ Text.quoted value ++ " (choose from " ++
    Text.join ", " (choices.map Text.quoted) ++ ")"

def message : Misuse → Text
  | ambiguous word spellings =>
    "ambiguous option: " ++ word ++ " could match " ++ Text.join ", " spellings
  | ignoredValue f value =>
    "argument " ++ f.label ++ ": ignored explicit argument " ++ Text.quoted value
  | missingValue f => "argument " ++ f.label ++ ": expected one argument"
  | badValue f value =>
    "argument " ++ f.label ++ ": " ++ choiceMessage value (f.choices?.getD [])
  | badCommand word =>
    "argument command: " ++ choiceMessage word (Command.all.map Command.word)
  | missingArguments names =>
    "the following arguments are required: " ++ Text.join ", " names
  | unrecognized words => "unrecognized arguments: " ++ Text.join " " words

end Misuse

/-- What a word is to a scope. Text that stands in the same word as a flag, behind an equals sign or
directly behind a short flag, is attached to the flag. -/
inductive Kind where
  | argument
  | separator
  | unknown
  | flag (f : Flag) (isLong : Bool) (attached : Option (List CodePoint))
deriving DecidableEq, Repr

structure Word where
  text : Text
  kind : Kind
deriving DecidableEq, Repr

namespace Word

/-- The parts of a word before and behind its first equals sign, if it has one. -/
def splitEquals (cs : List CodePoint) : List CodePoint × Option (List CodePoint) :=
  match cs.dropWhile (· != .char '=') with
  | [] => (cs, none)
  | _ :: value => (cs.takeWhile (· != .char '='), some value)

def isLong (cs : List CodePoint) : Bool := (Text.toList "--").isPrefixOf cs

/-- The flags that a word may stand for when it is no spelling of one: long flags that it starts,
or the short flag that starts it. -/
def candidates (scope : Scope) (cs : List CodePoint) : List (Text × Kind) :=
  if isLong cs then
    let (start, value) := splitEquals cs
    (scope.spellings.filter fun s => start.isPrefixOf s.1.toList).map fun s =>
      (s.1, .flag s.2 true value)
  else
    (scope.spellings.filter fun s => s.1.toList = cs.take 2).map fun s =>
      (s.1, .flag s.2 false (some (cs.drop 2)))

def isDigit (c : CodePoint) : Bool := (Text.decimalDigit? c).isSome

/-- A negative number: digits, perhaps with a point before the last of them. A line feed may
follow. -/
def isNegativeNumber (cs : List CodePoint) : Bool :=
  match cs with
  | '-' :: magnitude =>
    let number := if magnitude.getLast? = some (.char '\n') then magnitude.dropLast else magnitude
    match number.dropWhile isDigit with
    | [] => number ≠ []
    | '.' :: decimals => decimals ≠ [] && decimals.all isDigit
    | _ => false
  | _ => false

/-- What a word is, separators aside. -/
def kindOf (scope : Scope) (w : Text) : Except Misuse Kind :=
  let cs := w.toList
  if cs.head? ≠ some (.char '-') then .ok .argument
  else
    match scope.flag? w with
    | some f => .ok (.flag f (isLong cs) none)
    | none =>
      if cs = [.char '-'] then .ok .argument
      else
        match (splitEquals cs).2, scope.flag? (Text.ofList (splitEquals cs).1) with
        | some value, some f => .ok (.flag f (isLong cs) (some value))
        | _, _ =>
          match candidates scope cs with
          | [] => .ok (if isNegativeNumber cs || cs.contains ' ' then .argument else .unknown)
          | [(_, kind)] => .ok kind
          | several => .error (.ambiguous w (several.map Prod.fst))

def separatorText : Text := "--"

/-- The words as the scope sees them. Behind the first separator all are arguments. -/
def ofTexts (scope : Scope) : List Text → Except Misuse (List Word)
  | [] => .ok []
  | w :: ws =>
    if w = separatorText then
      .ok (⟨w, .separator⟩ :: ws.map fun text => ⟨text, .argument⟩)
    else do
      let kind ← kindOf scope w
      return ⟨w, kind⟩ :: (← ofTexts scope ws)

end Word

end NameCatalog.CommandLine
