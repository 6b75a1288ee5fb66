import NameCatalog.CommandLine.Flag
import NameCatalog.Text.LetterCase

/-!
# Usage and help

The usage names flags and arguments on one line; the help lists them with a word on each, in two
columns that together are eighty characters wide at most.
-/

namespace NameCatalog.CommandLine

def programName : Text := "lintnames"

def version : Text := "0.1.0"

def braced (choices : List Text) : Text :=
  "\x7b" ++ Text.join "," choices ++ "\x7d"

namespace Flag

def valueLabel (f : Flag) : Text :=
  match f.choices? with
  | some choices => braced choices
  | none => Text.upperCase (.ofList ((f.spellings.getD 0 "").toList.drop 2))

def spelt (f : Flag) (spelling : Text) : Text :=
  if f.takesValue then spelling ++ " " ++ f.valueLabel else spelling

def usage (f : Flag) : Text := "[" ++ f.spelt (f.spellings.getD 0 "") ++ "]"

def description : Flag → Text
  | help => "show this help message and exit"
  | version => "Print version and exit"
  | verbose => "Enable debug logging"
  | style => "Output encoding (default: java)"
  | file => "Additional catalog YAML file (repeatable; merged after configured files)"
  | format => "Output format (default: text)"

end Flag

def Command.description : Command → Text
  | render => "Render one identifier"
  | catalog => "List the catalog of well-known names"

structure Entry where
  indent : Nat
  label : Text
  description : Text
deriving DecidableEq, Repr

/-- Fills lines with words up to a width; a longer word has a line of its own. -/
def wrapFrom (width : Nat) (line : Text) : List Text → List Text
  | [] => [line]
  | w :: ws =>
    if line.length + 1 + w.length ≤ width then wrapFrom width (line ++ " " ++ w) ws
    else line :: wrapFrom width w ws

def wrap (width : Nat) (words : List Text) : List Text :=
  match words with
  | [] => []
  | w :: ws => wrapFrom width w ws

namespace Entry

def lineWidth : Nat := 78

/-- The second column starts here at the latest. -/
def maxColumn : Nat := 24

def head (e : Entry) : Text := Text.ofList (List.replicate e.indent ' ') ++ e.label

/-- Where the second column starts: two blanks behind the longest entry. -/
def column (entries : List Entry) : Nat :=
  min maxColumn (2 + entries.foldl (fun n e => max n e.head.length) 0)

/-- The lines of an entry. An entry too long for its column has a line of its own. -/
def lines (column : Nat) (e : Entry) : List Text :=
  let pad (s : Text) := s ++ Text.ofList (List.replicate (column - s.length) ' ')
  let words := ((Text.pieces ' ' e.description.toList).filter (· ≠ [])).map Text.ofList
  match wrap (lineWidth - column) words with
  | [] => [e.head]
  | first :: rest =>
    (if e.head.length + 2 ≤ column then [pad e.head ++ first] else [e.head, pad "" ++ first]) ++
      rest.map (pad "" ++ ·)

end Entry

namespace Scope

def name : Scope → Text
  | program => programName
  | command c => programName ++ " " ++ c.word

def argumentsUsage : Scope → List Text
  | program => [braced (Command.all.map Command.word), "..."]
  | scope => scope.arguments

def usage (scope : Scope) : Text :=
  let shown := scope.flags.map Flag.usage ++ scope.argumentsUsage
  "usage: " ++ Text.join " " (scope.name :: shown)

def about : Scope → List Text
  | program => ["Render fully-qualified names of well-known library symbols.", ""]
  | _ => []

def argumentEntries : Scope → List Entry
  | program =>
    ⟨2, braced (Command.all.map Command.word), ""⟩ ::
      Command.all.map fun c => ⟨4, c.word, c.description⟩
  | command .render => [
    ⟨2, "package", "Java-style package, e.g. androidx.compose.runtime"⟩,
    ⟨2, "name", "Declaration name, dotted when nested (Outer.Inner)"⟩]
  | command .catalog => []

def flagEntries (scope : Scope) : List Entry :=
  scope.flags.map fun f => ⟨2, Text.join ", " (f.spellings.map f.spelt), f.description⟩

/-- A list with its title; an empty list is left out. -/
def listed (column : Nat) (title : Text) (entries : List Entry) : List Text :=
  if entries = [] then [] else title :: entries.flatMap (Entry.lines column)

def help (scope : Scope) : Text :=
  let arguments := scope.argumentEntries
  let flags := scope.flagEntries
  let column := Entry.column (arguments ++ flags)
  let first := listed column "positional arguments:" arguments
  let gap : List Text := if first = [] then [] else [""]
  let options := listed column "options:" flags
  Text.join "\n" (scope.usage :: "" :: scope.about ++ first ++ gap ++ options.concat "")

def misuseText (scope : Scope) (m : Misuse) : Text :=
  scope.usage ++ "\n" ++ scope.name ++ ": error: " ++ m.message

end Scope

end NameCatalog.CommandLine
