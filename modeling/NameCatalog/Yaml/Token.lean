import NameCatalog.Yaml.Fault

/-!
# Tokens

What YAML text consists of for its grammar. Indentation has become explicit: a block collection
begins with its start token and ends with `blockEnd`. The last token is `streamEnd`, or the fault
at which reading stopped: it counts only if all before it makes sense.
-/

namespace NameCatalog.Yaml

inductive Directive where
  | version (major minor : Nat)
  | tag (handle start : Text)
  | other
deriving DecidableEq, Repr

inductive Token where
  | directive (d : Directive)
  | documentStart
  | documentEnd
  | blockSequenceStart
  | blockMappingStart
  | blockEnd
  | flowSequenceStart
  | flowSequenceEnd
  | flowMappingStart
  | flowMappingEnd
  | blockEntry
  | flowEntry
  | key
  | value
  | aliasOf (name : Text)
  | anchor (name : Text)
  | tag (handle : Option Text) (suffix : Text)
  | scalar (text : Text) (plain : Bool)
  | streamEnd
  | fault (f : Fault)
deriving DecidableEq, Repr

end NameCatalog.Yaml
