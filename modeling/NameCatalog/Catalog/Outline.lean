import NameCatalog.Value.Graph

/-!
# The outline of a document with shared parts

What a catalog is read from: the document itself, the list of packages, the entries and the lists of
names. Whatever else these refer to is unfolded by itself, so that it can be shown; what a catalog
does not look at is left out.
-/

namespace NameCatalog.Outline

open ValueGraph

/-- The items of a list, each read in the given way; anything else is unfolded. -/
def listOf (g : ValueGraph) (item : Nat → StateM Known Value) (n : Nat) : StateM Known Value :=
  match g.cell n with
  | .list items => .list <$> items.mapM item
  | _ => g.part n

/-- The fields of a mapping that are read, each in its way; anything else is unfolded. -/
def fieldsOf (g : ValueGraph) (fields : List (Text × (Nat → StateM Known Value))) (n : Nat) :
    StateM Known Value :=
  match g.cell n with
  | .mapping entries =>
    .mapping <$> entries.filterMapM fun (key, value) =>
      match g.text? key with
      | none => return none
      | some name =>
        match fields.lookup name with
        | none => return none
        | some read => do return some (.text name, ← read value)
  | _ => g.part n

def entry (g : ValueGraph) : Nat → StateM Known Value :=
  fieldsOf g [("package", g.part), ("names", listOf g g.part)]

def document (g : ValueGraph) : Value :=
  (fieldsOf g [("packages", listOf g (entry g))] g.root |>.run g.unknown).1

end NameCatalog.Outline
