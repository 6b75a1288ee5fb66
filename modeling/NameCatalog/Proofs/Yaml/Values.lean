import NameCatalog.Proofs.Yaml.Graphs
import NameCatalog.Proofs.Yaml.Trees

/-!
# The values of ordinary text

Making values changes the graph only by merging, so the graph stays ordinary and all that can go
wrong is an ordinary fault. With the trees this covers all documents.
-/

namespace NameCatalog.Yaml

namespace Realize

/-- What is left when a step ends in a result. -/
abbrev Leaves {α : Type} : Except Fault (α × Store) → Prop :=
  Ends Fault.Ordinary fun p => p.2.graph.Ordinary

/-- A step that keeps an ordinary graph ordinary. -/
def Safe {α : Type} (m : Realize α) : Prop := ∀ s : Store, s.graph.Ordinary → Leaves (m.run s)

variable {α β : Type}

theorem safe_pure (a : α) : Safe (pure a) := fun _ hs => .ok hs

theorem safe_invalid : Safe (throw .invalid : Realize α) := fun _ _ => ends_invalid

theorem leaves_bind {m : Realize α} {f : α → Realize β} {s : Store} (hm : Leaves (m.run s))
    (hf : ∀ a, Safe (f a)) : Leaves ((m >>= f).run s) :=
  Ends.bind hm fun p hp => hf p.1 p.2 hp

theorem Safe.bind {m : Realize α} {f : α → Realize β} (hm : Safe m) (hf : ∀ a, Safe (f a)) :
    Safe (m >>= f) :=
  fun s hs => leaves_bind (hm s hs) hf

theorem leaves_get_bind {f : Store → Realize β} {s : Store} (h : Leaves ((f s).run s)) :
    Leaves ((get >>= f : Realize β).run s) :=
  h

theorem safe_get_bind {f : Store → Realize β}
    (hf : ∀ s : Store, s.graph.Ordinary → Leaves ((f s).run s)) : Safe (get >>= f) :=
  fun s hs => leaves_get_bind (hf s hs)

/-- A step that does not look at the store. -/
theorem leaves_lift_bind {P : α → Prop} {x : Except Fault α} {f : α → Realize β} {s : Store}
    (hx : Ends Fault.Ordinary P x) (hf : ∀ a, P a → Leaves ((f a).run s)) :
    Leaves ((monadLift x >>= f : Realize β).run s) := by
  cases hx with
  | ok h => exact hf _ h
  | error h => exact .error h

theorem safe_modify {f : Store → Store} (hf : ∀ s, (f s).graph = s.graph) : Safe (modify f) := by
  intro s hs
  refine .ok ?_
  change (f s).graph.Ordinary
  rw [hf s]
  exact hs

theorem Safe.mapM {f : α → Realize β} (hf : ∀ a, Safe (f a)) (as : List α) :
    Safe (as.mapM f) := by
  induction as with
  | nil => exact safe_pure []
  | cons a as ih =>
      rw [List.mapM_cons]
      exact (hf a).bind fun _ => ih.bind fun _ => safe_pure _

theorem Safe.forM {f : α → Realize Unit} (hf : ∀ a, Safe (f a)) (as : List α) :
    Safe (as.forM f) := by
  induction as with
  | nil => exact safe_pure ()
  | cons a as ih => exact (hf a).bind fun _ => ih

/-! ## Cells -/

theorem safe_newCell (c : Cell) : Safe (newCell c) := fun _ hs => .ok hs

theorem safe_setCell (n : Nat) (c : Cell) : Safe (setCell n c) := safe_modify fun _ => rfl

theorem safe_emptyCell (node : Nat) (c : Cell) : Safe (emptyCell node c) := by
  refine (safe_newCell c).bind fun n => Safe.bind ?_ fun _ => safe_pure n
  exact safe_modify fun _ => rfl

theorem safe_notANumberCell : Safe notANumberCell := by
  refine safe_get_bind fun s hs => ?_
  split
  · exact .ok hs
  · refine Safe.bind (safe_newCell _) (fun n => Safe.bind ?_ fun _ => safe_pure n) s hs
    exact safe_modify fun _ => rfl

/-- A node with the tag of a scalar type is a scalar, and its text fits the type. -/
theorem leaves_scalarCell {node : Nat} {tag : Tag} {s : Store} (hs : s.graph.Ordinary)
    (htag : s.graph.tag node = tag) (hsequence : tag ≠ .sequence) (hmapping : tag ≠ .mapping) :
    Leaves ((scalarCell node tag).run s) := by
  have hvertex := hs node
  unfold Vertex.Ordinary at hvertex
  cases hcontent : (s.graph.vertex node).content with
  | sequence items =>
      rw [hcontent] at hvertex
      exact absurd (htag.symm.trans hvertex) hsequence
  | mapping entries =>
      rw [hcontent] at hvertex
      exact absurd (htag.symm.trans hvertex) hmapping
  | scalar text =>
      rw [hcontent] at hvertex
      have hfits : tag.Fits text := htag ▸ hvertex
      have htext : s.graph.text (s.graph.size + 1) node = .ok text := by
        rw [Graph.text, hcontent]
      have hscalar : (s.graph.vertex node).isMapping = false := by
        rw [Vertex.isMapping, hcontent]
      have hread : Ends Fault.Ordinary (· = text) (s.graph.text (s.graph.size + 1) node) := by
        rw [htext]
        exact .ok rfl
      refine leaves_get_bind (leaves_lift_bind hread ?_)
      rintro _ rfl
      rw [if_neg (by simp [hscalar])]
      split
      · exact safe_notANumberCell s hs
      · exact leaves_lift_bind hfits fun v _ => safe_newCell (.atom v) s hs

theorem leaves_make {node : Nat} {tag : Tag} {s : Store} (hs : s.graph.Ordinary)
    (htag : s.graph.tag node = tag) : Leaves ((make node tag).run s) := by
  have hscalar := leaves_scalarCell hs htag
  cases tag with
  | sequence => exact safe_emptyCell _ _ s hs
  | orderedMap => exact safe_emptyCell _ _ s hs
  | pairs => exact safe_emptyCell _ _ s hs
  | set => exact safe_emptyCell _ _ s hs
  | mapping => exact safe_emptyCell _ _ s hs
  | merge => exact ends_invalid
  | default => exact ends_invalid
  | unknown => exact ends_invalid
  | null => exact hscalar nofun nofun
  | bool => exact hscalar nofun nofun
  | int => exact hscalar nofun nofun
  | real => exact hscalar nofun nofun
  | binary => exact hscalar nofun nofun
  | timestamp => exact hscalar nofun nofun
  | text => exact hscalar nofun nofun

theorem safe_cellOf (node : Nat) : Safe (cellOf node) := by
  refine safe_get_bind fun s hs => ?_
  split
  · exact .ok hs
  · refine leaves_get_bind (leaves_bind (leaves_make hs rfl) fun n => ?_)
    refine Safe.bind ?_ fun _ => safe_pure n
    exact safe_modify fun _ => rfl

/-! ## Collections -/

theorem safe_pair (node : Nat) : Safe (pair node) := by
  refine safe_get_bind fun s hs => ?_
  split
  · next k v _ =>
      have hcells : Safe (do
          let key ← cellOf k
          let value ← cellOf v
          newCell (.tuple [key, value])) :=
        (safe_cellOf k).bind fun _ => (safe_cellOf v).bind fun _ => safe_newCell _
      exact hcells s hs
  · exact ends_invalid

theorem safe_cell (n : Nat) : Safe (cell n) := safe_get_bind fun _ hs => .ok hs

theorem safe_entryCells (entries own : List (Nat × Nat)) : Safe (entryCells entries own) := by
  induction own generalizing entries with
  | nil => exact safe_pure entries
  | cons e own ih =>
      obtain ⟨k, v⟩ := e
      refine (safe_cellOf k).bind fun key => (safe_cell key).bind fun c => ?_
      have hrest : Safe (do
          let value ← cellOf v
          entryCells (putEntry (← get).cells entries key value) own) :=
        (safe_cellOf v).bind fun value => safe_get_bind fun s hs => ih _ s hs
      split
      · exact safe_invalid.bind fun _ => hrest
      · exact hrest

/-- Merging needs to know that it begins at a mapping. -/
theorem leaves_mappingCells {node : Nat} {s : Store} (hs : s.graph.Ordinary)
    (htag : s.graph.tag node = .mapping) : Leaves ((mappingCells node).run s) := by
  have hflatten := Graph.mergesTo_flatten hs htag
  refine leaves_get_bind (leaves_lift_bind hflatten ?_)
  rintro g ⟨hg, -⟩
  exact safe_entryCells [] (g.entries node) _ hg

theorem safe_fill (node n : Nat) : Safe (fill node n) := by
  refine safe_get_bind fun s hs => ?_
  have hvertex := hs node
  unfold Vertex.Ordinary at hvertex
  dsimp only
  split
  · next items _ _ =>
      exact (Safe.mapM safe_cellOf items).bind (fun _ => safe_setCell n _) s hs
  · next items _ _ =>
      exact (Safe.mapM safe_pair items).bind (fun _ => safe_setCell n _) s hs
  · next items _ _ =>
      exact (Safe.mapM safe_pair items).bind (fun _ => safe_setCell n _) s hs
  -- a set is a mapping of another tag, which an ordinary graph does not have
  · next htag hcontent =>
      rw [hcontent] at hvertex
      exact nomatch htag.symm.trans hvertex
  · next htag _ =>
      exact leaves_bind (leaves_mappingCells hs htag) fun _ => safe_setCell n _
  · exact ends_invalid

theorem safe_fillWaiting (fuel : Nat) : Safe (fillWaiting fuel) := by
  induction fuel with
  | zero => exact fun _ _ => .error Fault.ordinary_tooDeep
  | succ fuel ih =>
      refine safe_get_bind fun s hs => ?_
      split
      · exact .ok hs
      · have hfill : Safe (s.waiting.reverse.forM fun w : Nat × Nat => fill w.1 w.2) := by
          apply Safe.forM
          intro w
          exact safe_fill w.1 w.2
        exact hfill.bind (fun _ => ih) { s with waiting := [] } hs

theorem safe_root : Safe root :=
  (safe_cellOf 0).bind fun n => safe_get_bind fun s hs =>
    (safe_fillWaiting _).bind (fun _ => safe_pure n) s hs

end Realize

theorem Graph.Ordinary.ends_values {g : Graph} (h : g.Ordinary) :
    Ends Fault.Ordinary (fun _ => True) g.values :=
  (Realize.safe_root (Realize.start g) h).bind fun _ _ => .ok trivial

theorem Document.ends_ofNode {n : Option Node} (h : ∀ m ∈ n, m.Ordinary) :
    Ends Fault.Ordinary (fun _ => True) (ofNode n) := by
  cases n with
  | none => exact .ok trivial
  | some n =>
      have hn := h n rfl
      have htree := hn.gives.value 0
      refine Ends.ite (fun _ => ?_) (fun _ => ?_)
      · generalize n.build 0 = outcome at htree ⊢
        cases htree with
        | ok _ => exact .ok trivial
        | error he => exact .error he
      · exact (Graph.ordinary_ofNode hn).ends_values.map fun _ _ => trivial

/-- Text without tags and escapes is a document, or the fault is one of its content, of its depth
or of the size of a number in sixtieths. -/
theorem ends_read {cs : List CodePoint} (h : OrdinaryText cs) :
    Ends Fault.Ordinary (fun _ => True) (read cs) := by
  refine Ends.ite (fun _ => ?_) (fun _ => ends_invalid)
  exact (Document.ends_node (Token.ordinary_ofText h)).bind fun _ hn => Document.ends_ofNode hn

end NameCatalog.Yaml
