import NameCatalog.CommandLine.Run

/-!
# Kinds of faults

Faults are told apart by what went wrong: a value that does not fit, a file that is not there, or
something that no run expects. A run reports faults of the first two kinds; all others break it off.
-/

namespace NameCatalog

inductive FaultKind where
  | value
  | missingFile
  | directory
  | system
  | type
  | attribute
  | key
  | index
  | overflow
  | depth
deriving DecidableEq, Repr

def Yaml.Fault.kind : Yaml.Fault → FaultKind
  | .emptyNumeral => .index
  | .truth _ => .key
  | .timestamp => .attribute
  | .timestampOfMapping => .type
  | .hugeCodePoint => .overflow
  | .hugePower => .overflow
  | .tooDeep => .depth
  | _ => .value

def LoadFault.kind : LoadFault → FaultKind
  | notPath _ => .type
  | missing _ => .missingFile
  | directory _ => .directory
  | tooLong _ => .system
  | unreadable .. => .system
  | encoding _ => .value
  | notYaml .. => .value
  | yaml _ f => f.kind
  | document _ _ => .value

def SettingsFault.kind : SettingsFault → FaultKind
  | unreadable .. => .system
  | _ => .value

def LevelFault.kind : LevelFault → FaultKind
  | notText _ => .attribute
  | notName _ => .type
  | unknown _ => .attribute
  | notLevel _ => .value
  | notNumber _ => .type

def CommandLine.Fault.kind : CommandLine.Fault → FaultKind
  | settings f => f.kind
  | level f => f.kind
  | name _ => .value
  | style _ => .value
  | load f => f.kind
  | output _ => .value

/-- The kinds that a run reports. -/
def FaultKind.isReported : FaultKind → Bool
  | value => true
  | missingFile => true
  | _ => false

theorem FaultKind.isReported_iff {k : FaultKind} :
    k.isReported = true ↔ k = .value ∨ k = .missingFile := by
  cases k <;> decide

theorem Yaml.Fault.isReported_kind (f : Yaml.Fault) : f.kind.isReported = f.isReported := by
  cases f <;> rfl

theorem LoadFault.isReported_kind (f : LoadFault) : f.kind.isReported = f.isReported := by
  cases f with
  | yaml path f => exact f.isReported_kind
  | _ => rfl

/-- The kind of a fault alone decides whether a run reports it. -/
theorem CommandLine.Fault.isReported_kind (f : CommandLine.Fault) :
    f.kind.isReported = f.isReported := by
  cases f with
  | settings f => cases f <;> rfl
  | level f => cases f <;> rfl
  | load f => exact f.isReported_kind
  | _ => rfl

end NameCatalog
