import NameCatalog.Value.Graph
import NameCatalog.Yaml.Graph
import NameCatalog.Yaml.Scalar

/-!
# The values of a graph of nodes

Every node has one value, however often it is referred to. The value of a scalar is made at once. A
collection is empty at first and waits until all that were made before it have got their parts; so
values are made level by level, and the first fault on the way counts.
-/

namespace NameCatalog.Yaml

/-- `made` says which cell is the value of which node; `waiting` lists the nodes of the collections
that are still empty, with their cells, latest first. All not-a-numbers that are written out are one
value. -/
structure Store where
  graph : Graph
  cells : Array Cell
  made : Array (Option Nat)
  waiting : List (Nat × Nat)
  notANumber : Option Nat

abbrev Realize := StateT Store (Except Fault)

namespace Realize

def start (g : Graph) : Store := ⟨g, #[], Array.replicate g.size none, [], none⟩

def newCell (c : Cell) : Realize Nat :=
  modifyGet fun s => (s.cells.size, { s with cells := s.cells.push c })

def setCell (n : Nat) (c : Cell) : Realize Unit :=
  modify fun s => { s with cells := s.cells.setIfInBounds n c }

def cell (n : Nat) : Realize Cell := do
  return (← get).cells.getD n (.atom .null)

def emptyCell (node : Nat) (c : Cell) : Realize Nat := do
  let n ← newCell c
  modify fun s => { s with waiting := (node, n) :: s.waiting }
  return n

def notANumberCell : Realize Nat := do
  match (← get).notANumber with
  | some n => return n
  | none => do
    let n ← newCell (.atom (.real .nan))
    modify fun s => { s with notANumber := some n }
    return n

/-- The value of a node whose tag is that of a scalar type. -/
def scalarCell (node : Nat) (tag : Tag) : Realize Nat := do
  let g := (← get).graph
  let s ← g.text (g.size + 1) node
  if tag = .timestamp ∧ (g.vertex node).isMapping then throw .timestampOfMapping
  else if tag = .real ∧ Scalar.isNotANumber s then notANumberCell
  else newCell (.atom (← Scalar.value tag s))

def make (node : Nat) : Tag → Realize Nat
  | .sequence => emptyCell node (.list [])
  | .orderedMap => emptyCell node (.list [])
  | .pairs => emptyCell node (.list [])
  | .set => emptyCell node (.set [])
  | .mapping => emptyCell node (.mapping [])
  | .merge => throw .invalid
  | .default => throw .invalid
  | .unknown => throw .invalid
  | tag => scalarCell node tag

def cellOf (node : Nat) : Realize Nat := do
  match (← get).made.getD node none with
  | some n => return n
  | none => do
    let n ← make node ((← get).graph.tag node)
    modify fun s => { s with made := s.made.setIfInBounds node (some n) }
    return n

/-- A mapping of one entry, as a pair. -/
def pair (node : Nat) : Realize Nat := do
  match (← get).graph.entries node with
  | [(k, v)] => do
    let key ← cellOf k
    let value ← cellOf v
    newCell (.tuple [key, value])
  | _ => throw .invalid

/-- A later entry of the same key replaces the value and keeps the place and key of the first. -/
def putEntry (cells : Array Cell) (entries : List (Nat × Nat)) (key value : Nat) :
    List (Nat × Nat) :=
  match entries with
  | [] => [(key, value)]
  | (k, v) :: rest =>
    if k = key ∨ (cells.getD k (.atom .null)).sameKey (cells.getD key (.atom .null)) then
      (k, value) :: rest
    else (k, v) :: putEntry cells rest key value

/-- Each key is made before its value, and has to be one. -/
def entryCells (entries : List (Nat × Nat)) : List (Nat × Nat) → Realize (List (Nat × Nat))
  | [] => return entries
  | (k, v) :: rest => do
    let key ← cellOf k
    if !(← cell key).isKey then throw .invalid
    let value ← cellOf v
    entryCells (putEntry (← get).cells entries key value) rest

def mappingCells (node : Nat) : Realize (List (Nat × Nat)) := do
  let g ← (← get).graph.flatten node
  modify fun s => { s with graph := g }
  entryCells [] (g.entries node)

def fill (node n : Nat) : Realize Unit := do
  let x := (← get).graph.vertex node
  match x.tag, x.content with
  | .sequence, .sequence items => do setCell n (.list (← items.mapM cellOf))
  | .orderedMap, .sequence items => do setCell n (.list (← items.mapM pair))
  | .pairs, .sequence items => do setCell n (.list (← items.mapM pair))
  | .set, .mapping _ => do setCell n (.set ((← mappingCells node).map Prod.fst))
  | .mapping, .mapping _ => do setCell n (.mapping (← mappingCells node))
  | _, _ => throw .invalid

/-- Fills the waiting collections, and then those that began to wait meanwhile. Every node waits at
most once. -/
def fillWaiting : Nat → Realize Unit
  | 0 => throw .tooDeep
  | fuel + 1 => do
    match (← get).waiting with
    | [] => return
    | waiting => do
      modify fun s => { s with waiting := [] }
      waiting.reverse.forM fun w => fill w.1 w.2
      fillWaiting fuel

def root : Realize Nat := do
  let n ← cellOf 0
  fillWaiting ((← get).graph.size + 1)
  return n

end Realize

def Graph.values (g : Graph) : Except Fault ValueGraph := do
  let (n, s) ← Realize.root.run (Realize.start g)
  return ⟨s.cells, n⟩

end NameCatalog.Yaml
