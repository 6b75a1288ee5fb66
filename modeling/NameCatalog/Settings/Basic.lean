import NameCatalog.Files.Path
import NameCatalog.Log.Message
import NameCatalog.Text.Blank
import NameCatalog.Text.LetterCase
import NameCatalog.Text.Utf8
import NameCatalog.Value

/-!
# Settings

The level of the log and the catalog files to read. Each setting is looked for by itself: among the
given values, then in the environment, then in the settings file; otherwise it has a default.
Variables are named without regard to letter case.
-/

namespace NameCatalog

open Text

structure Settings where
  logLevel : Severity
  catalogFiles : List Path
deriving DecidableEq, Repr

/-- What is wrong with a setting, and the value that it is wrong with. -/
inductive SettingFault where
  | levelNotText (given : Value)
  | levelNotUtf8 (given : List UInt8)
  | unknownLevel (level : Text) (given : Value)
  | filesNotList (given : Value)
  | notPath (index : Nat) (item : Value)
deriving Repr

namespace SettingFault

def message : SettingFault → Text
  | levelNotText _ => "Input should be a valid string"
  | levelNotUtf8 _ =>
    "Input should be a valid string, unable to parse raw data as a unicode string"
  | unknownLevel level _ => "Value error, Unknown log level: " ++ quoted level
  | filesNotList _ => "Input should be a valid list"
  | notPath .. => "Input is not a valid path for <class 'pathlib.Path'>"

end SettingFault

inductive Setting where
  | logLevel
  | catalogFiles
deriving DecidableEq, Repr

namespace Setting

def word : Setting → Text
  | logLevel => "log_level"
  | catalogFiles => "catalog_files"

/-- The name of the variable that sets it, in small letters. -/
def variableName : Setting → Text
  | s => "lintnames_" ++ s.word

end Setting

/-- The setting at fault, and the number of the item when one item is at fault. -/
def SettingFault.place : SettingFault → Setting × Option Nat
  | levelNotText _ => (.logLevel, none)
  | levelNotUtf8 _ => (.logLevel, none)
  | unknownLevel .. => (.logLevel, none)
  | filesNotList _ => (.catalogFiles, none)
  | notPath i _ => (.catalogFiles, some i)

/-- Where settings come from. A variable of a settings file may have no value. -/
structure Sources where
  given : List (Text × Value)
  environment : List (Text × Text)
  file : List (Text × Option Text)
deriving Repr

namespace Sources

/-- The value of the variable of the given name; of several spellings the last counts. -/
def lookupVariable {α : Type} (vars : List (Text × α)) (name : Text) : Option α :=
  (vars.reverse.find? fun v => lowerCase v.1 = name).map Prod.snd

/-- The first source that gives the setting decides. -/
def find (src : Sources) (s : Setting) : Option Value :=
  (src.given.reverse.lookup s.word).or <|
    ((lookupVariable src.environment s.variableName).map .text).or <|
      ((lookupVariable src.file s.variableName).join).map .text

end Sources

namespace Settings

/-- The items of a text that lists them with commas, without the blanks around them. -/
def listed (s : Text) : List Text :=
  (((pieces ',' s.toList).map trimBlanks).filter (· ≠ [])).map Text.ofList

/-- Paths from the items of a list that is read from item number `i` on. -/
def pathsFrom (i : Nat) : List Value → List SettingFault × List Path
  | [] => ([], [])
  | .text s :: rest =>
    let r := pathsFrom (i + 1) rest
    (r.1, Path.ofString s :: r.2)
  | .path p :: rest =>
    let r := pathsFrom (i + 1) rest
    (r.1, p :: r.2)
  | v :: rest =>
    let r := pathsFrom (i + 1) rest
    (.notPath i v :: r.1, r.2)

/-- The items of a collection that does for a list. -/
def items? : Value → Option (List Value)
  | .list items => some items
  | .tuple items => some items
  | .set items => some items
  | _ => none

def readFiles (given : Value) : Except (List SettingFault) (List Path) :=
  match given, items? given with
  | .text s, _ => .ok ((listed s).map Path.ofString)
  | _, some items =>
    match pathsFrom 0 items with
    | ([], paths) => .ok paths
    | (faults, _) => .error faults
  | _, none => .error [.filesNotList given]

/-- The text that a value does for, if it is one or the bytes of one. -/
def levelText (given : Value) : Except (List SettingFault) Text :=
  match given with
  | .text s => .ok s
  | .bytes bs => ((Utf8.decode bs).map ofList).mapError fun _ => [.levelNotUtf8 bs]
  | _ => .error [.levelNotText given]

/-- A level is known by its word, in any letter case. -/
def readLevel (given : Value) : Except (List SettingFault) Severity := do
  let s ← levelText given
  match Severity.ofWord? (upperCase s) with
  | some level => .ok level
  | none => .error [.unknownLevel s given]

def defaultLevel : Severity := .info

def logLevelOf (src : Sources) : Except (List SettingFault) Severity :=
  match src.find .logLevel with
  | some v => readLevel v
  | none => .ok defaultLevel

def catalogFilesOf (src : Sources) : Except (List SettingFault) (List Path) :=
  match src.find .catalogFiles with
  | some v => readFiles v
  | none => .ok []

/-- Both settings are read, so that the faults of both are known. -/
def ofSources (src : Sources) : Except (List SettingFault) Settings :=
  match logLevelOf src, catalogFilesOf src with
  | .ok level, .ok files => .ok ⟨level, files⟩
  | .error faults, .ok _ => .error faults
  | .ok _, .error faults => .error faults
  | .error faults, .error more => .error (faults ++ more)

end Settings

end NameCatalog
