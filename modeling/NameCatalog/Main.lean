import NameCatalog.CommandLine.Run
import Std.Time.Format

/-!
# The command line

Gathers what a run depends on (the words of the command line, the environment and the files it looks
up), does the run, and writes what it leaves.
-/

namespace NameCatalog.CommandLine

/-- A path with a file in the place of a directory, or with links that go round, leads nowhere. -/
def foundOf : IO.Error → Found
  | .noFileOrDirectory .. => .missing
  | .inappropriateType _ 20 _ => .missing
  | .inappropriateType _ 21 _ => .directory
  | .invalidArgument _ 36 _ => .tooLong
  | .invalidArgument _ 40 _ => .missing
  | .permissionDenied _ code details => .unreadable code.toNat details
  | .resourceExhausted _ code details => .unreadable code.toNat details
  | .otherError code details => .unreadable code.toNat details
  | e => .unreadable 5 (toString e)

/-- A path whose bytes are no text cannot be opened from here. -/
def lookUp (path : Path) : IO (Path × Found) := do
  match String.fromUTF8? ⟨(Text.Utf8.encode path.toString.toList).toArray⟩ with
  | none => return (path, .missing)
  | some name =>
    try
      let bytes ← IO.FS.readBinFile name
      return (path, .file bytes.toList)
    catch e => return (path, foundOf e)

/-- The texts in a block that null characters end. -/
def textsIn (block : ByteArray) : List (List CodePoint) :=
  (Text.pieces '\x00' (Text.Utf8.decodeEscaping block.toList)).dropLast

/-- The variables in a block of assignments. -/
def variablesIn (block : ByteArray) : List (Text × Text) :=
  (textsIn block).filterMap fun assignment =>
    match assignment.dropWhile (· != .char '=') with
    | [] => none
    | _ :: value => some (.ofList (assignment.takeWhile (· != .char '=')), .ofList value)

/-- The environment; where it cannot be listed, the variables of the settings alone. -/
def environment : IO (List (Text × Text)) := do
  try
    return variablesIn (← IO.FS.readBinFile "/proc/self/environ")
  catch _ =>
    let names := ["LINTNAMES_LOG_LEVEL", "LINTNAMES_CATALOG_FILES"]
    let values ← names.mapM fun name => IO.getEnv name
    return (names.zip values).filterMap fun (name, value) => value.map fun s => (↑name, ↑s)

/-- The words behind the name of the program, byte for byte where the system tells them. -/
def words (argv : List String) : IO (List Text) := do
  try
    return (textsIn (← IO.FS.readBinFile "/proc/self/cmdline")).tail.map Text.ofList
  catch _ => return argv.map Text.ofString

def now : IO Text := do
  return (← Std.Time.PlainDateTime.now).format "uuuu-MM-dd'T'HH:mm:ss"

def runHere (argv : List String) : IO Report := do
  let argv ← words argv
  let env ← environment
  let settingsFile ← lookUp Settings.filePath
  let loads := catalogLoads env (.ofList [settingsFile]) argv
  let catalogs ← loads.mapM fun l => lookUp l.2
  return (run .initial env (.ofList (settingsFile :: catalogs)) argv).2

def write (stream : IO.FS.Stream) (s : Text) : IO Unit :=
  stream.write ⟨(Text.Utf8.encode s.toList).toArray⟩

/-- Errors are written in any case, surrogates by their codes. -/
def writeErrors (s : Text) : IO Unit := do
  let shown := s.toList.flatMap fun c => if c.isSurrogate then Text.escapeCode c.toNat else [c]
  write (← IO.getStderr) (Text.ofList shown)

/-- Does a run and writes what it leaves; the status tells how it ended. -/
def runAndReport (argv : List String) : IO UInt32 := do
  let report ← runHere argv
  writeErrors (report.errorText (← now))
  write (← IO.getStdout) report.output
  match report.ending with
  | .broken f =>
    writeErrors (f.message ++ "\n")
    return 1
  | ending => return (ending.status?.getD 1).toUInt32

end NameCatalog.CommandLine

def main (argv : List String) : IO UInt32 :=
  NameCatalog.CommandLine.runAndReport argv
