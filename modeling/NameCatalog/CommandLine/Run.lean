import NameCatalog.Catalog.Load
import NameCatalog.CommandLine.Arguments
import NameCatalog.CommandLine.Help
import NameCatalog.Json.Printer
import NameCatalog.Log.State
import NameCatalog.Settings.Load

/-!
# Running the program

A run reads its command line, its settings and its catalog files, and then writes all of its output
at once, if the output takes it. A run that fails writes no output. The state of the log is all that
a run leaves behind for the next one of the same process.
-/

namespace NameCatalog.CommandLine

open LogState (Line)

inductive Fault where
  | settings (f : SettingsFault)
  | level (f : LevelFault)
  | name (m : Malformed Value)
  | style (given : Value)
  | load (f : LoadFault)
  | output (refusal : Text)
deriving Repr

namespace Fault

def message : Fault → Text
  | settings f => f.message
  | level f => f.message
  | name m => m.message
  | style given => Style.refusal given
  | load f => f.message
  | output refusal => refusal

def isReported : Fault → Bool
  | settings f => f.isReported
  | level (.notLevel _) => true
  | level _ => false
  | name _ => true
  | style _ => true
  | load f => f.isReported
  | output _ => true

end Fault

inductive Ending where
  | success
  | failure (f : Fault)
  | misuse
  | broken (f : Fault)
deriving Repr

/-- The status of a run that does not break off. -/
def Ending.status? : Ending → Option Nat
  | success => some 0
  | failure _ => some 1
  | misuse => some 2
  | broken _ => none

/-- What a run leaves: how it ended, its output, and the lines of its error stream. -/
structure Report where
  ending : Ending
  output : Text
  errors : List Line
deriving Repr

namespace Report

def ofOutput (output : Text) (errors : List Line) : Report := ⟨.success, output, errors⟩

def ofFault (f : Fault) (errors : List Line) : Report :=
  if f.isReported then ⟨.failure f, "", errors ++ [.bare ("Error: " ++ f.message)]⟩
  else ⟨.broken f, "", errors⟩

def ofStop : Stop → Report
  | .help scope => ofOutput scope.help []
  | .misuse scope m => ⟨.misuse, "", [.bare (scope.misuseText m)]⟩

def errorText (time : Text) (r : Report) : Text :=
  Text.join "" (r.errors.map (Line.text time))

end Report

def formsOf (x : Identifier) : Json :=
  .object [
    ("qualified_name", .text x.qualifiedName), ("internal_class_name", .text x.internalClassName),
    ("short_name", .text x.shortName)]

def rendered (x : Identifier) : Form → Text
  | .one style => x.render style
  | .all => (formsOf x).indented

def listingLine (x : Identifier) : Text := x.qualifiedName ++ "\t" ++ x.internalClassName

def listed (c : Catalog) : Listing → Text
  | .text => Text.join "\n" (c.names.map listingLine)
  | .json => (Json.array (c.names.map formsOf)).indented

def identifierOf (package name : Value) : Except (Malformed Value) Identifier := do
  Identifier.ofDotted (← Package.ofDotted package) name

/-- The catalog that a listing asks for: the built-in names, those of the configured files, and
those of further files. -/
def catalogOf (settings : Settings) (host : Host) (further : List Value) :
    Logged (Except LoadFault Catalog) :=
  (Catalog.build host settings.catalogFiles).andThen fun c =>
    (Catalog.loadAll (Catalog.loadValue host.further) further).andThen fun cs =>
      (Catalog.merge (c :: cs)).map .ok

/-- What a render writes. The name is looked at before the style. -/
def renderedFrom (package name style : Value) : Except Fault Text := do
  let x ← (identifierOf package name).mapError .name
  match Form.ofValue? style with
  | some form => return rendered x form
  | none => .error (.style style)

/-- What a task is to write. -/
def Task.text (settings : Settings) (host : Host) : Task → Logged (Except Fault Text)
  | .help => .silent (.ok Scope.program.help)
  | .render package name style => .silent ((renderedFrom package name style).map (· ++ "\n"))
  | .catalog further listing =>
    (catalogOf settings host further).map fun r =>
      match r with
      | .ok c => .ok (listed c listing ++ "\n")
      | .error f => .error (.load f)

/-- A text that the output takes, and which is then written. -/
def written (stream : Stream) (s : Text) : Except Fault Text :=
  if stream.Takes s then .ok s else .error (.output (stream.refusal s))

def Task.output (settings : Settings) (host : Host) (t : Task) : Logged (Except Fault Text) :=
  (t.text settings host).map fun r => r.bind (written host.output)

def levelFor (request : Request) (settings : Settings) : Severity :=
  if request.verbose then .debug else settings.logLevel

/-- A run that got its settings, behind the lines that were written so far. -/
def runWith (log : LogState) (host : Host) (request : Request) (settings : Settings)
    (errors : List Line) : LogState × Report :=
  match log.setup (.text (levelFor request settings).word) with
  | (log, some f) => (log, .ofFault (.level f) errors)
  | (log, none) =>
    let done := request.task.output settings host
    let errors := errors ++ log.writeAll (done.notices.map Notice.message)
    match done.result with
    | .ok output => (log, .ofOutput output errors)
    | .error f => (log, .ofFault f errors)

def versionText : Text := programName ++ " " ++ version ++ "\n"

/-- One run of the program in a process whose log is in the given state. -/
def run (log : LogState) (environment : List (Text × Text)) (host : Host)
    (argv : List Text) : LogState × Report :=
  match Request.ofArguments argv with
  | .error stop => (log, .ofStop stop)
  | .ok request =>
    if request.version then (log, .ofOutput versionText [])
    else
      let (messages, settings) := Settings.load [] environment host
      let errors := log.writeAll messages
      match settings with
      | .error f => (log, .ofFault (.settings f) errors)
      | .ok settings => runWith log host request settings errors

def runAll (log : LogState) (host : Host) :
    List (List (Text × Text) × List Text) → List Report
  | [] => []
  | (environment, argv) :: rest =>
    let (log, report) := run log environment host argv
    report :: runAll log host rest

/-- The loads that a run makes once its settings file is known, each with the host as it finds it:
those of the configured files and those of further files. -/
def catalogLoads (environment : List (Text × Text)) (host : Host) (argv : List Text) :
    List (Host × Path) :=
  match Request.ofArguments argv, (Settings.load [] environment host).2 with
  | .ok ⟨_, _, .catalog further _⟩, .ok settings =>
    settings.catalogFiles.map (host, ·) ++
      (further.filterMap fun v => v.text?.map Path.ofString).map (host.further, ·)
  | _, _ => []

end NameCatalog.CommandLine
