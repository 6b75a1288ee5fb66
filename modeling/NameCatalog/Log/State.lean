import NameCatalog.Log.Message
import NameCatalog.Text.LetterCase
import NameCatalog.Value

/-!
# The log of a process

The log is set up once: the first attempt decides, whether it succeeds or not, and later ones do
nothing. Before that, and after an attempt that left no handler, warnings and worse are written
bare. With a handler, every message that reaches the threshold is written as a line of its own.
-/

namespace NameCatalog

structure LogState where
  configured : Bool
  threshold : Nat
  handlers : Nat
deriving DecidableEq, Repr

inductive LevelFault where
  | notText (typeName : Text)
  | notName (typeName : Text)
  | unknown (name : Text)
  | notLevel (text : Text)
  | notNumber (literal : Text)
deriving DecidableEq, Repr

def LevelFault.message : LevelFault → Text
  | notText t => "\x27" ++ t ++ "\x27 object has no attribute \x27upper\x27"
  | notName t => "attribute name must be string, not \x27" ++ t ++ "\x27"
  | unknown name => "module \x27logging\x27 has no attribute \x27" ++ name ++ "\x27"
  | notLevel text => "Unknown level: " ++ Text.quoted text
  | notNumber literal => "Level not an integer or a valid string: " ++ literal

/-- What a name in capitals stands for: a threshold, or something that is none. -/
inductive LevelName where
  | threshold (n : Nat)
  | other (f : LevelFault)

namespace LogState

def initial : LogState := ⟨false, Severity.warning.rank, 0⟩

def defaultLevel : Value := .text Severity.info.word

def bareTemplate : Text := "%(levelname)s:%(name)s:%(message)s"

def stylesLiteral : Text :=
  "\x7b'%': (<class 'logging.PercentStyle'>, '%(levelname)s:%(name)s:%(message)s'), " ++
    "'\x7b': (<class 'logging.StrFormatStyle'>, " ++
    "'\x7blevelname\x7d:\x7bname\x7d:\x7bmessage\x7d'), " ++
    "'$': (<class 'logging.StringTemplateStyle'>, " ++
    "'$\x7blevelname\x7d:$\x7bname\x7d:$\x7bmessage\x7d')\x7d"

/-- The names that are known beside the words of the severities. -/
def furtherNames : List (Text × LevelName) := [
  ("WARN", .threshold Severity.warning.rank), ("FATAL", .threshold Severity.critical.rank),
  ("NOTSET", .threshold 0), ("BASIC_FORMAT", .other (.notLevel bareTemplate)),
  ("_STYLES", .other (.notNumber stylesLiteral))]

def levelName? (name : Text) : Option LevelName :=
  match Severity.ofWord? name with
  | some s => some (.threshold s.rank)
  | none => furtherNames.lookup name

def severity? (name : Text) : Option Severity :=
  match levelName? name with
  | some (.threshold n) => Severity.all.find? (·.rank = n)
  | _ => none

/-- What a value means as a level, in any letter case. Bytes can be put in capitals like text, but
name nothing. -/
def meaningOf : Value → Except LevelFault LevelName
  | .text given =>
    let name := Text.upperCase given
    match levelName? name with
    | some meaning => .ok meaning
    | none => .error (.unknown name)
  | .bytes bs => .error (.notName (Value.bytes bs).typeName)
  | v => .error (.notText v.typeName)

/-- Puts a handler on a log that has none, and only then sets the threshold: the handler stays when
the name stands for no threshold. A log that has a handler is left as it is. -/
def install (s : LogState) (meaning : LevelName) : LogState × Option LevelFault :=
  if s.handlers ≠ 0 then (s, none)
  else
    match meaning with
    | .threshold n => ({ s with threshold := n, handlers := 1 }, none)
    | .other f => ({ s with handlers := 1 }, some f)

/-- Sets the log up. The attempt counts before it is known whether it succeeds. -/
def setup (s : LogState) (level : Value) : LogState × Option LevelFault :=
  if s.configured then (s, none)
  else
    let s := { s with configured := true }
    match meaningOf level with
    | .ok meaning => s.install meaning
    | .error f => (s, some f)

@[simp] theorem setup_of_configured {s : LogState} (h : s.configured = true) (level : Value) :
    s.setup level = (s, none) := by
  simp [setup, h]

inductive Line where
  | bare (text : Text)
  | stamped (m : Message)
deriving DecidableEq, Repr

def Line.text (time : Text) : Line → Text
  | .bare text => text ++ "\n"
  | .stamped m => m.line time ++ "\n"

def write (s : LogState) (m : Message) : List Line :=
  if m.severity.rank < s.threshold then []
  else if s.handlers = 0 then
    if m.severity.rank < Severity.warning.rank then [] else [.bare m.text]
  else List.replicate s.handlers (.stamped m)

def writeAll (s : LogState) (ms : List Message) : List Line :=
  ms.flatMap s.write

end LogState

end NameCatalog
