import NameCatalog.Value
import NameCatalog.Yaml.Node
import NameCatalog.Yaml.Scalar

/-!
# The value of a tree

A document without aliases is a tree, and its value is found by recursion. Values are built level by
level: the scalars in a collection belong to the collection's own level, the collections in it to
the next. Of several faults the one on the highest level counts, and of those on one level the
first. A set is left with its elements in the order in which they came.
-/

namespace NameCatalog.Yaml

/-- A value, or the fault that counts and its level. -/
abbrev Outcome (α : Type) := Except (Nat × Fault) α

namespace Outcome

/-- Both results; of two faults the one on the higher level, else the first. -/
def both {α β : Type} : Outcome α → Outcome β → Outcome (α × β)
  | .ok a, .ok b => .ok (a, b)
  | .ok _, .error e => .error e
  | .error e, .ok _ => .error e
  | .error (m, e), .error (n, f) => if m ≤ n then .error (m, e) else .error (n, f)

def cons {α : Type} (x : Outcome α) (xs : Outcome (List α)) : Outcome (List α) :=
  (both x xs).map fun p => p.1 :: p.2

@[simp] theorem both_ok {α β : Type} (a : α) (b : β) :
    both (.ok a) (.ok b) = .ok (a, b) := rfl

@[simp] theorem cons_ok {α : Type} (a : α) (as : List α) :
    cons (.ok a) (.ok as) = .ok (a :: as) := rfl

end Outcome

structure Pending where
  isKey : Bool
  key : Outcome Value
  value : Outcome Value

namespace Pending

/-- A key that cannot be one is a fault of the mapping that holds it, whatever is in the key. -/
def outcome (level : Nat) (p : Pending) : Outcome (Value × Value) :=
  if p.isKey then Outcome.both p.key p.value else .error (level, .invalid)

def outcomes (level : Nat) : List Pending → Outcome (List (Value × Value))
  | [] => .ok []
  | p :: rest => Outcome.cons (p.outcome level) (outcomes level rest)

/-- The entries of a mapping: first what is merged into it, then its own. -/
def joined (level : Nat) :
    Except Fault (List Pending × List Pending) → Outcome (List (Value × Value))
  | .error f => .error (level, f)
  | .ok (merged, own) => outcomes level (merged ++ own)

end Pending

namespace Node

mutual

/-- Whether nothing in a document has to be told from its equals: there are no aliases, and no
not-a-numbers, which as keys are one and the same though they differ from themselves. -/
def isTree : Node → Bool
  | scalar _ tag s => !(tag == .real && Scalar.isNotANumber s)
  | sequence _ _ items => areTrees items
  | mapping _ _ entries => areEntryTrees entries
  | aliasOf _ => false

def areTrees : List Node → Bool
  | [] => true
  | n :: rest => isTree n && areTrees rest

def areEntryTrees : List (Node × Node) → Bool
  | [] => true
  | (k, v) :: rest => isTree k && isTree v && areEntryTrees rest

end

/-- The tag of a node; an alias has none of its own. -/
def tag : Node → Tag
  | scalar _ t _ => t
  | sequence _ t _ => t
  | mapping _ t _ => t
  | aliasOf _ => .unknown

/-- Collections cannot be keys, nor can scalars that are tagged as collections. -/
def isKey (n : Node) : Bool :=
  !n.tag.isCollection

/-- The text of a scalar, or of the scalar that a mapping has as its default. -/
def scalarText? : Node → Option Text
  | scalar _ _ s => some s
  | mapping _ _ entries => defaultText? entries
  | _ => none
where
  defaultText? : List (Node × Node) → Option Text
    | [] => none
    | (k, v) :: rest => if k.tag = .default then scalarText? v else defaultText? rest

def scalarOutcome (level : Nat) (tag : Tag) (s : Text) : Outcome Value :=
  match Scalar.value tag s with
  | .ok v => .ok v
  | .error f =>
    .error (if tag.isCollection then level + 1 else level, f)

/-- A mapping with the tag of a scalar type. -/
def mappingAsScalar (level : Nat) (tag : Tag) (n : Node) : Outcome Value :=
  match n.scalarText? with
  | none => .error (level, .invalid)
  | some s =>
    if tag = .timestamp then .error (level, .timestampOfMapping) else scalarOutcome level tag s

/-- A default mark as a key is text. -/
def defaultKey (level : Nat) (n : Node) : Outcome Value :=
  match n.scalarText? with
  | some s => .ok (.text s)
  | none => .error (level, .invalid)

mutual

/-- The value of a node that stands in a collection of the given level. -/
def build (level : Nat) : Node → Outcome Value
  | scalar _ tag s => scalarOutcome level tag s
  | aliasOf _ => .error (level, .invalid)
  | sequence _ tag items =>
    match tag with
    | .sequence => (buildItems (level + 1) items).map .list
    | .orderedMap => (buildPairs (level + 1) items).map .list
    | .pairs => (buildPairs (level + 1) items).map .list
    | .mapping => .error (level + 1, .invalid)
    | .set => .error (level + 1, .invalid)
    | _ => .error (level, .invalid)
  | mapping anchor tag entries =>
    match tag with
    | .mapping =>
      (Pending.joined (level + 1) (splitEntries (level + 1) entries)).map fun es =>
        .mapping (Value.putAll [] es)
    | .set =>
      (Pending.joined (level + 1) (splitEntries (level + 1) entries)).map fun es =>
        .set ((Value.putAll [] es).map Prod.fst)
    | .sequence => .error (level + 1, .invalid)
    | .orderedMap => .error (level + 1, .invalid)
    | .pairs => .error (level + 1, .invalid)
    | tag => mappingAsScalar level tag (mapping anchor tag entries)

def buildItems (level : Nat) : List Node → Outcome (List Value)
  | [] => .ok []
  | n :: rest => Outcome.cons (build level n) (buildItems level rest)

/-- Mappings of one entry each, as pairs. -/
def buildPairs (level : Nat) : List Node → Outcome (List Value)
  | [] => .ok []
  | mapping _ _ [(k, v)] :: rest =>
    let pair := (Outcome.both (build level k) (build level v)).map fun p => Value.tuple [p.1, p.2]
    Outcome.cons pair (buildPairs level rest)
  | _ :: _ => .error (level, .invalid)

/-- The merged entries and a mapping's own. -/
def splitEntries (level : Nat) :
    List (Node × Node) → Except Fault (List Pending × List Pending)
  | [] => .ok ([], [])
  | (k, v) :: rest =>
    if k.tag = .merge then do
      let here ← mergedFrom level v
      let (merged, own) ← splitEntries level rest
      return (here ++ merged, own)
    else do
      let (merged, own) ← splitEntries level rest
      let key := if k.tag = .default then defaultKey level k else build level k
      return (merged, ⟨k.isKey, key, build level v⟩ :: own)

/-- The entries of the mapping that is merged, or of a sequence of mappings, the last first. -/
def mergedFrom (level : Nat) : Node → Except Fault (List Pending)
  | mapping _ _ entries => do
    let (merged, own) ← splitEntries level entries
    return merged ++ own
  | sequence _ _ items => do return (← mergedFromAll level items).reverse.flatten
  | _ => .error .invalid

def mergedFromAll (level : Nat) : List Node → Except Fault (List (List Pending))
  | [] => .ok []
  | mapping _ _ entries :: rest => do
    let (merged, own) ← splitEntries level entries
    return (merged ++ own) :: (← mergedFromAll level rest)
  | _ :: _ => .error .invalid

end

end Node

end NameCatalog.Yaml
