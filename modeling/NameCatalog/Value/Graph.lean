import NameCatalog.Value

/-!
# Values with shared parts

In a graph of values each collection refers to its parts by their numbers, so that one part can
stand in several places and a collection can contain itself. A part is unfolded into a value of its
own: on the way down, a collection that is already being unfolded is not unfolded again.
-/

namespace NameCatalog

inductive Cell where
  | atom (v : Value)
  | list (items : List Nat)
  | tuple (items : List Nat)
  | set (items : List Nat)
  | mapping (entries : List (Nat × Nat))
deriving Repr, Inhabited

namespace Cell

def isKey : Cell → Bool
  | atom v => v.isKey
  | _ => false

/-- Whether two cells are the same key, apart from being one cell. -/
def sameKey : Cell → Cell → Bool
  | atom v, atom w => v.sameKey w
  | _, _ => false

end Cell

structure ValueGraph where
  cells : Array Cell
  root : Nat
deriving Repr

namespace ValueGraph

/-- The values of the cells that are known to contain nothing that is being unfolded. -/
abbrev Known := Array (Option Value)

/-- A value, and whether nothing in it is left out because it comes round. -/
abbrev Unfolded := Value × Bool

def withItems (make : List Value → Value) (items : List Unfolded) : Unfolded :=
  (make (items.map Prod.fst), items.all Prod.snd)

def withEntries (entries : List (Unfolded × Unfolded)) : Unfolded :=
  (.mapping (entries.map fun e => (e.1.1, e.2.1)), entries.all fun e => e.1.2 && e.2.2)

def shapeOf : Cell → Shape
  | .atom _ => .list
  | .list _ => .list
  | .tuple _ => .tuple
  | .set _ => .set
  | .mapping _ => .mapping

/-- Unfolds the cell of the given number inside the collections of `path`. -/
def unfold (g : ValueGraph) : Nat → List Nat → Nat → StateM Known Unfolded
  | 0, _, _ => return (.null, false)
  | fuel + 1, path, n => do
    match (← get).getD n none, g.cells.getD n (.atom .null) with
    | some v, _ => return (v, true)
    | none, .atom v => return (v, true)
    | none, cell =>
      if n ∈ path then return (.again (shapeOf cell), false)
      let inner := unfold g fuel (n :: path)
      let unfolded ←
        match cell with
        | .list items => withItems .list <$> items.mapM inner
        | .tuple items => withItems .tuple <$> items.mapM inner
        | .set items => withItems .set <$> items.mapM inner
        | .mapping entries =>
          withEntries <$> entries.mapM fun e => do return (← inner e.1, ← inner e.2)
        | .atom v => pure (v, true)
      if unfolded.2 then modify fun known => known.setIfInBounds n (some unfolded.1)
      return unfolded

/-- The value of a part by itself. A path holds each cell at most once. -/
def part (g : ValueGraph) (n : Nat) : StateM Known Value := do
  return (← unfold g (g.cells.size + 1) [] n).1

def cell (g : ValueGraph) (n : Nat) : Cell := g.cells.getD n (.atom .null)

def text? (g : ValueGraph) (n : Nat) : Option Text :=
  match g.cell n with
  | .atom v => v.text?
  | _ => none

def unknown (g : ValueGraph) : Known := Array.replicate g.cells.size none

end ValueGraph

end NameCatalog
