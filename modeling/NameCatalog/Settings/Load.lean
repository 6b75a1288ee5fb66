import NameCatalog.Host
import NameCatalog.Settings.EnvFile
import NameCatalog.Text.LineBreak

/-!
# Reading the settings of a run

The settings file is read when there is one. Statements that cannot be read are reported to the log
and otherwise left out; a file that cannot be read breaks the run off.
-/

namespace NameCatalog

/-- Each fault of a setting comes with the detail that is added to its message. -/
inductive SettingsFault where
  | unreadable (path : Text) (number : Nat) (reason : Text)
  | encoding (f : Text.Utf8.Fault)
  | invalid (faults : List (SettingFault × Text))
deriving Repr

namespace SettingsFault

def describe (f : SettingFault) (detail : Text) : Text :=
  let (setting, index) := f.place
  setting.word ++ (index.map fun i => "." ++ toString i).getD "" ++ "\n  " ++ f.message ++ detail

def message : SettingsFault → Text
  | unreadable path number reason => systemText number reason path
  | encoding f => f.message
  | invalid faults =>
    toString faults.length ++ " validation error" ++ (if faults.length = 1 then "" else "s") ++
      " for Settings\n" ++ Text.join "\n" (faults.map fun f => describe f.1 f.2)

/-- A file that cannot be read is no fault that a run reports. -/
def isReported : SettingsFault → Bool
  | unreadable .. => false
  | _ => true

end SettingsFault

namespace Settings

def filePath : Path := Path.ofString ".env"

/-- The text behind the mark that tells how it is encoded. -/
def behindMark : List CodePoint → List CodePoint
  | '\ufeff' :: cs => cs
  | cs => cs

/-- The statements of the settings file; there are none when there is no such file. -/
def statements (host : Host) : Except SettingsFault (List (Nat × EnvFile.Statement)) :=
  match host.found filePath with
  | .file bytes => do
    let cs ← (Text.Utf8.decode bytes).mapError .encoding
    return EnvFile.statements (Text.unifyLineEnds (behindMark cs))
  | .unreadable number reason => .error (.unreadable filePath.toString number reason)
  | _ => .ok []

def unreadableMessage (line : Nat) : Message :=
  ⟨.warning, "dotenv.main",
    "python-dotenv could not parse statement starting at line " ++ toString line⟩

/-- Faults of settings, each with what the host has to say of it. -/
def invalidOn (host : Host) (faults : List SettingFault) : SettingsFault :=
  .invalid (faults.map fun f => (f, host.settingDetail f))

def load (given : List (Text × Value)) (environment : List (Text × Text)) (host : Host) :
    List Message × Except SettingsFault Settings :=
  match statements host with
  | .error f => ([], .error f)
  | .ok ss =>
    ((EnvFile.unreadable ss).map unreadableMessage,
      (ofSources ⟨given, environment, EnvFile.variablesOf environment ss⟩).mapError
        (invalidOn host))

end Settings

end NameCatalog
