import NameCatalog.Catalog.Builtin
import NameCatalog.Catalog.Document
import NameCatalog.Catalog.Outline
import NameCatalog.Host
import NameCatalog.Text.LineBreak

/-!
# Loading catalogs from files

A catalog file is UTF-8 text that holds a YAML document. Several files are read in order and merged
behind the built-in names; the first that fails ends the reading.
-/

namespace NameCatalog

inductive LoadFault where
  | notPath (typeName : Text)
  | missing (path : Text)
  | directory (path : Text)
  | tooLong (path : Text)
  | unreadable (path : Text) (number : Nat) (reason : Text)
  | encoding (f : Text.Utf8.Fault)
  | notYaml (path detail : Text)
  | yaml (path : Text) (f : Yaml.Fault)
  | document (path : Text) (f : DocumentFault)
deriving Repr

namespace LoadFault

def message : LoadFault → Text
  | notPath t => "expected str, bytes or os.PathLike object, not " ++ t
  | missing path => "Catalog not found: " ++ path
  | directory path => systemText 21 "Is a directory" path
  | tooLong path => systemText 36 "File name too long" path
  | unreadable path number reason => systemText number reason path
  | encoding f => f.message
  | notYaml path detail =>
    "Catalog " ++ path ++ " " ++ Yaml.Fault.message .invalid ++ ": " ++ detail
  | yaml _ f => f.message
  | document path f => f.message path

/-- Faults that a run reports and ends with; the others break it off. -/
def isReported : LoadFault → Bool
  | missing _ => true
  | encoding _ => true
  | notYaml .. => true
  | yaml _ f => f.isReported
  | document _ _ => true
  | _ => false

/-- Only text that is no YAML has details. -/
def ofYaml (path detail : Text) : Yaml.Fault → LoadFault
  | .invalid => notYaml path detail
  | f => yaml path f

end LoadFault

def decodeText (bytes : List UInt8) : Except Text.Utf8.Fault (List CodePoint) :=
  Text.unifyLineEnds <$> Text.Utf8.decode bytes

def documentValue : Yaml.Document → Value
  | .tree v => v
  | .graph g => Outline.document g

def readDocument (host : Host) (path : Text) (bytes : List UInt8) : Except LoadFault Value := do
  let cs ← (decodeText bytes).mapError .encoding
  let doc ← (host.stack.read cs).mapError (.ofYaml path (host.yamlDetail cs))
  return (documentValue doc).arranged host.setOrder

namespace Catalog

def ofBytes (host : Host) (path : Text) (bytes : List UInt8) :
    Logged (Except LoadFault Catalog) :=
  match readDocument host path bytes with
  | .error f => .silent (.error f)
  | .ok doc => (ofDocument path doc).map (·.mapError (.document path))

def load (host : Host) (path : Path) : Logged (Except LoadFault Catalog) :=
  match host.found path with
  | .missing => .silent (.error (.missing path.toString))
  | .tooLong => .silent (.error (.tooLong path.toString))
  | .directory => .silent (.error (.directory path.toString))
  | .unreadable number reason => .silent (.error (.unreadable path.toString number reason))
  | .file bytes => ofBytes host path.toString bytes

/-- Text can stand for a path. -/
def loadValue (host : Host) : Value → Logged (Except LoadFault Catalog)
  | .text s => load host (Path.ofString s)
  | .path p => load host p
  | v => .silent (.error (.notPath v.typeName))

/-- Loads in order, up to the first fault. -/
def loadAll {α : Type} (load : α → Logged (Except LoadFault Catalog)) :
    List α → Logged (Except LoadFault (List Catalog))
  | [] => .silent (.ok [])
  | file :: rest => (load file).andThen fun c => (loadAll load rest).map (·.map (c :: ·))

/-- The built-in names and those of the files, merged in order. -/
def build (host : Host) (paths : List Path) : Logged (Except LoadFault Catalog) :=
  (loadAll (load host) paths).andThen fun cs => (merge (Builtin.catalog :: cs)).map .ok

end Catalog

end NameCatalog
