import NameCatalog.Yaml.Node

/-!
# Documents with shared nodes

Once aliases are followed, a document is a graph: its nodes are numbered in the order in which they
begin, and collections refer to their parts by number. Merging changes the mapping that is merged
into, and a default mark that is a key becomes text, for all who refer to them.
-/

namespace NameCatalog.Yaml

inductive Content where
  | scalar (text : Text)
  | sequence (items : List Nat)
  | mapping (entries : List (Nat × Nat))
deriving Repr

structure Vertex where
  tag : Tag
  content : Content
deriving Repr

instance : Inhabited Vertex := ⟨⟨.null, .scalar ""⟩⟩

namespace Vertex

def isMapping (x : Vertex) : Bool :=
  match x.content with
  | .mapping _ => true
  | _ => false

def items (x : Vertex) : List Nat :=
  match x.content with
  | .sequence items => items
  | _ => []

def entries (x : Vertex) : List (Nat × Nat) :=
  match x.content with
  | .mapping entries => entries
  | _ => []

end Vertex

abbrev Graph := Array Vertex

namespace Graph

def vertex (g : Graph) (n : Nat) : Vertex := g.getD n default

def tag (g : Graph) (n : Nat) : Tag := (g.vertex n).tag

def entries (g : Graph) (n : Nat) : List (Nat × Nat) := (g.vertex n).entries

def setContent (g : Graph) (n : Nat) (c : Content) : Graph :=
  g.modify n fun x => { x with content := c }

def setTag (g : Graph) (n : Nat) (t : Tag) : Graph :=
  g.modify n fun x => { x with tag := t }

/-! ## Numbering -/

/-- The nodes so far and the numbers of the named ones. -/
structure Numbering where
  graph : Graph
  names : List (Text × Nat)

def enter (anchor : Option Text) (x : Vertex) : StateM Numbering Nat :=
  modifyGet fun s =>
    let n := s.graph.size
    let names := match anchor with
      | some a => (a, n) :: s.names
      | none => s.names
    (n, ⟨s.graph.push x, names⟩)

def leave (n : Nat) (c : Content) : StateM Numbering Nat :=
  modifyGet fun s => (n, { s with graph := s.graph.setContent n c })

mutual

def number : Node → StateM Numbering Nat
  | .scalar anchor tag text => enter anchor ⟨tag, .scalar text⟩
  | .sequence anchor tag items => do
    let n ← enter anchor ⟨tag, .sequence []⟩
    leave n (.sequence (← numberItems items))
  | .mapping anchor tag entries => do
    let n ← enter anchor ⟨tag, .mapping []⟩
    leave n (.mapping (← numberEntries entries))
  | .aliasOf name => do return ((← get).names.lookup name).getD 0

def numberItems : List Node → StateM Numbering (List Nat)
  | [] => return []
  | n :: rest => do return (← number n) :: (← numberItems rest)

def numberEntries : List (Node × Node) → StateM Numbering (List (Nat × Nat))
  | [] => return []
  | (k, v) :: rest => do return (← number k, ← number v) :: (← numberEntries rest)

end

/-- The graph of a document; its root is node `0`. -/
def ofNode (n : Node) : Graph :=
  ((number n).run ⟨#[], []⟩).2.graph

/-! ## Texts of nodes -/

/-- The text of a scalar, or of the scalar that a mapping has as its default. -/
def text (g : Graph) : Nat → Nat → Except Fault Text
  | 0, _ => .error .tooDeep
  | fuel + 1, n =>
    match (g.vertex n).content with
    | .scalar s => .ok s
    | .mapping entries =>
      match entries.find? fun e => g.tag e.1 = .default with
      | some e => text g fuel e.2
      | none => .error .invalid
    | .sequence _ => .error .invalid

/-! ## Merging -/

/-- The first value to be merged among the entries, and the others. -/
def firstMerge (g : Graph) : List (Nat × Nat) → Option (Nat × List (Nat × Nat))
  | [] => none
  | e :: rest =>
    if g.tag e.1 = .merge then some (e.2, rest)
    else (firstMerge g rest).map fun r => (r.1, e :: r.2)

/-- Default marks among the keys become text. -/
def textKeys (g : Graph) (entries : List (Nat × Nat)) : Graph :=
  entries.foldl (fun g e => if g.tag e.1 = .default then g.setTag e.1 .text else g) g

/-- The entries that merging puts in front of a mapping's own. -/
def putInFront (g : Graph) (n : Nat) (merged : List (Nat × Nat)) : Graph :=
  let entries := merged ++ g.entries n
  textKeys (g.setContent n (.mapping entries)) entries

mutual

/-- Replaces the merge keys of mapping `n` one after the other; `merged` is what they gave so far.
Each step takes a merge key away. -/
def merge : Nat → Nat → List (Nat × Nat) → Graph → Except Fault Graph
  | 0, _, _, _ => .error .tooDeep
  | fuel + 1, n, merged, g =>
    match firstMerge g (g.entries n) with
    | none => .ok (g.putInFront n merged)
    | some (source, rest) => do
      let (more, g) ← mergedFrom fuel source (g.setContent n (.mapping rest))
      merge fuel n (merged ++ more) g

/-- The entries of a mapping, or of the mappings in a sequence, the last first. -/
def mergedFrom : Nat → Nat → Graph → Except Fault (List (Nat × Nat) × Graph)
  | 0, _, _ => .error .tooDeep
  | fuel + 1, source, g =>
    match (g.vertex source).content with
    | .mapping _ => do
      let g ← merge fuel source [] g
      return (g.entries source, g)
    | .sequence items => mergedFromAll fuel items [] g
    | .scalar _ => .error .invalid

def mergedFromAll : Nat → List Nat → List (Nat × Nat) → Graph →
    Except Fault (List (Nat × Nat) × Graph)
  | 0, _, _, _ => .error .tooDeep
  | _, [], merged, g => .ok (merged, g)
  | fuel + 1, source :: rest, merged, g =>
    if (g.vertex source).isMapping then do
      let g ← merge fuel source [] g
      mergedFromAll fuel rest (g.entries source ++ merged) g
    else .error .invalid

end

/-- A bound on how deep merging goes: every merge key once, with all the items it may go through. -/
def mergeFuel (g : Graph) : Nat :=
  let entries := g.foldl (fun total x => total + x.entries.length) 0
  let items := g.foldl (fun total x => total + x.items.length) 0
  (entries + 1) * (items + 4)

def flatten (g : Graph) (n : Nat) : Except Fault Graph :=
  merge g.mergeFuel n [] g

end Graph

end NameCatalog.Yaml
