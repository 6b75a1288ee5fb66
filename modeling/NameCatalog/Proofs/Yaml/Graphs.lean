import NameCatalog.Proofs.Yaml.Nodes

/-!
# The graphs of ordinary text

Numbering and merging change the contents of collections and make text of default marks that are
keys. Neither touches what a graph of ordinary nodes rests on: collections have the tags of their
kinds, and scalars fit their types.
-/

namespace NameCatalog.Yaml

def Vertex.Ordinary (x : Vertex) : Prop :=
  match x.content with
  | .scalar s => x.tag.Fits s
  | .sequence _ => x.tag = .sequence
  | .mapping _ => x.tag = .mapping

namespace Graph

def Ordinary (g : Graph) : Prop := ∀ n, (g.vertex n).Ordinary

/-! ## Changes of a graph -/

theorem vertex_push (g : Graph) (x : Vertex) (i : Nat) :
    vertex (g.push x) i = if i = g.size then x else g.vertex i := by
  simp only [vertex, Array.getD_eq_getD_getElem?, Array.getElem?_push]
  split <;> rfl

theorem vertex_modify (g : Graph) (n : Nat) (f : Vertex → Vertex) (i : Nat) :
    vertex (g.modify n f) i = if i = n ∧ i < g.size then f (g.vertex i) else g.vertex i := by
  simp only [vertex, Array.getD_eq_getD_getElem?, Array.getElem?_modify]
  by_cases hn : i = n
  · subst hn
    by_cases hi : i < g.size
    · simp [hi]
    · simp [hi]
  · simp [hn, Ne.symm hn]

theorem tag_setContent (g : Graph) (n : Nat) (c : Content) (i : Nat) :
    (g.setContent n c).tag i = g.tag i := by
  rw [tag, setContent, vertex_modify]
  split
  · rfl
  · rfl

theorem size_setContent (g : Graph) (n : Nat) (c : Content) :
    (g.setContent n c).size = g.size :=
  Array.size_modify

theorem ordinary_push {g : Graph} (h : g.Ordinary) {x : Vertex} (hx : x.Ordinary) :
    Ordinary (g.push x) := by
  intro i
  rw [vertex_push]
  split
  · exact hx
  · exact h i

theorem Ordinary.setSequence {g : Graph} (h : g.Ordinary) {n : Nat} (hn : g.tag n = .sequence)
    (items : List Nat) : (g.setContent n (.sequence items)).Ordinary := by
  intro i
  rw [setContent, vertex_modify]
  split
  · next hi => exact hi.1 ▸ hn
  · exact h i

theorem Ordinary.setMapping {g : Graph} (h : g.Ordinary) {n : Nat} (hn : g.tag n = .mapping)
    (entries : List (Nat × Nat)) : (g.setContent n (.mapping entries)).Ordinary := by
  intro i
  rw [setContent, vertex_modify]
  split
  · next hi => exact hi.1 ▸ hn
  · exact h i

theorem Ordinary.tag_of_content {g : Graph} (h : g.Ordinary) {n : Nat}
    {entries : List (Nat × Nat)} (hn : (g.vertex n).content = .mapping entries) :
    g.tag n = .mapping := by
  have hvertex := h n
  rw [Vertex.Ordinary, hn] at hvertex
  exact hvertex

theorem Ordinary.tag_of_isMapping {g : Graph} (h : g.Ordinary) {n : Nat}
    (hn : (g.vertex n).isMapping = true) : g.tag n = .mapping := by
  unfold Vertex.isMapping at hn
  split at hn
  · next entries hcontent => exact h.tag_of_content hcontent
  · cases hn

/-! ## Numbering -/

/-- More nodes, and the tags of the old ones. -/
structure Extends (g g' : Graph) : Prop where
  size : g.size ≤ g'.size
  tag : ∀ i, i < g.size → g'.tag i = g.tag i

theorem Extends.refl (g : Graph) : g.Extends g := ⟨Nat.le_refl _, fun _ _ => rfl⟩

theorem Extends.trans {g g' g'' : Graph} (h : g.Extends g') (h' : g'.Extends g'') :
    g.Extends g'' := by
  refine ⟨Nat.le_trans h.size h'.size, ?_⟩
  intro i hi
  rw [h'.tag i (Nat.lt_of_lt_of_le hi h.size), h.tag i hi]

theorem extends_push (g : Graph) (x : Vertex) : g.Extends (g.push x) := by
  refine ⟨by simp, ?_⟩
  intro i hi
  rw [tag, vertex_push, if_neg (Nat.ne_of_lt hi)]
  rfl

theorem extends_setContent (g : Graph) (n : Nat) (c : Content) : g.Extends (g.setContent n c) :=
  ⟨Nat.le_of_eq (size_setContent g n c).symm, fun i _ => tag_setContent g n c i⟩

/-- Numbering that keeps a graph ordinary and only adds to it. -/
def Numbers {α : Type} (m : StateM Numbering α) : Prop :=
  ∀ s : Numbering, s.graph.Ordinary →
    (m.run s).2.graph.Ordinary ∧ s.graph.Extends (m.run s).2.graph

theorem Numbers.bind {α β : Type} {m : StateM Numbering α} {f : α → StateM Numbering β}
    (hm : Numbers m) (hf : ∀ a, Numbers (f a)) : Numbers (m >>= f) := by
  intro s hs
  obtain ⟨hordinary, hextends⟩ := hm s hs
  obtain ⟨hordinary', hextends'⟩ := hf (m.run s).1 (m.run s).2 hordinary
  exact ⟨hordinary', hextends.trans hextends'⟩

theorem numbers_pure {α : Type} (a : α) : Numbers (pure a) :=
  fun _ hs => ⟨hs, Extends.refl _⟩

theorem numbers_enter (anchor : Option Text) {x : Vertex} (hx : x.Ordinary) :
    Numbers (enter anchor x) :=
  fun s hs => ⟨ordinary_push hs hx, extends_push s.graph x⟩

theorem numbers_collection {β : Type} (anchor : Option Text) {t : Tag} {empty : Content}
    {make : List β → Content} {m : StateM Numbering (List β)}
    (hempty : Vertex.Ordinary ⟨t, empty⟩)
    (hmake : ∀ {g : Graph} {n : Nat} (parts : List β), g.Ordinary → g.tag n = t →
      (g.setContent n (make parts)).Ordinary)
    (hm : Numbers m) :
    Numbers (do
      let n ← enter anchor ⟨t, empty⟩
      leave n (make (← m))) := by
  -- the collection is entered empty; when its parts are numbered its tag is still the one it had
  intro s hs
  obtain ⟨hentered, hextends⟩ := numbers_enter anchor hempty s hs
  obtain ⟨hparts, hextends'⟩ := hm _ hentered
  have hsize : s.graph.size < ((enter anchor ⟨t, empty⟩).run s).2.graph.size := by
    change s.graph.size < (s.graph.push _).size
    simp
  have htag : ((enter anchor ⟨t, empty⟩).run s).2.graph.tag s.graph.size = t := by
    change tag (s.graph.push _) s.graph.size = t
    rw [tag, vertex_push, if_pos rfl]
  have hkept := (hextends'.tag _ hsize).trans htag
  exact ⟨hmake _ hparts hkept, (hextends.trans hextends').trans (extends_setContent _ _ _)⟩

theorem numbers_numberItems {items : List Node} (h : ∀ n ∈ items, Numbers (number n)) :
    Numbers (numberItems items) := by
  induction items with
  | nil => exact numbers_pure []
  | cons n items ih =>
      obtain ⟨hn, hitems⟩ := List.forall_mem_cons.mp h
      exact hn.bind fun _ => (ih hitems).bind fun _ => numbers_pure _

theorem numbers_numberEntries {entries : List (Node × Node)}
    (hkeys : ∀ e ∈ entries, Numbers (number e.1)) (hvalues : ∀ e ∈ entries, Numbers (number e.2)) :
    Numbers (numberEntries entries) := by
  induction entries with
  | nil => exact numbers_pure []
  | cons e entries ih =>
      obtain ⟨hk, hkeys⟩ := List.forall_mem_cons.mp hkeys
      obtain ⟨hv, hvalues⟩ := List.forall_mem_cons.mp hvalues
      refine hk.bind fun _ => hv.bind fun _ => ?_
      exact (ih hkeys hvalues).bind fun _ => numbers_pure _

theorem numbers_number {n : Node} (h : n.Ordinary) : Numbers (number n) := by
  induction h with
  | scalar h => exact numbers_enter _ h
  | sequence _ ih =>
      exact numbers_collection _ rfl (fun parts hg hn => hg.setSequence hn parts)
        (numbers_numberItems ih)
  | mapping _ _ hkeys hvalues =>
      exact numbers_collection _ rfl (fun parts hg hn => hg.setMapping hn parts)
        (numbers_numberEntries hkeys hvalues)
  | aliasOf =>
      intro s hs
      exact ⟨hs, Extends.refl _⟩

theorem ordinary_ofNode {n : Node} (h : n.Ordinary) : (ofNode n).Ordinary := by
  have hempty : Ordinary #[] := fun _ => .ok trivial
  exact (numbers_number h ⟨#[], []⟩ hempty).1

/-! ## Merging -/

/-- Mappings stay mappings. -/
def KeepsMappings (g g' : Graph) : Prop := ∀ n, g.tag n = .mapping → g'.tag n = .mapping

theorem KeepsMappings.trans {g g' g'' : Graph} (h : g.KeepsMappings g')
    (h' : g'.KeepsMappings g'') : g.KeepsMappings g'' :=
  fun n hn => h' n (h n hn)

theorem keepsMappings_setContent (g : Graph) (n : Nat) (c : Content) :
    g.KeepsMappings (g.setContent n c) :=
  fun i hi => (tag_setContent g n c i).trans hi

theorem tag_setTag (g : Graph) (n : Nat) (t : Tag) {i : Nat} (hi : i ≠ n) :
    (g.setTag n t).tag i = g.tag i := by
  rw [tag, setTag, vertex_modify, if_neg fun h => hi h.1]
  rfl

/-- A default mark is a scalar, and text always fits. -/
theorem Ordinary.setText {g : Graph} (h : g.Ordinary) {n : Nat} (hn : g.tag n = .default) :
    (g.setTag n .text).Ordinary ∧ g.KeepsMappings (g.setTag n .text) := by
  refine ⟨?_, ?_⟩
  · intro i
    rw [setTag, vertex_modify]
    split
    · next hi =>
        obtain ⟨rfl, -⟩ := hi
        have hvertex := h i
        unfold Vertex.Ordinary at hvertex ⊢
        cases hcontent : (g.vertex i).content with
        | scalar s => exact Tag.fits_text s
        | sequence items =>
            rw [hcontent] at hvertex
            exact nomatch hn.symm.trans hvertex
        | mapping entries =>
            rw [hcontent] at hvertex
            exact nomatch hn.symm.trans hvertex
    · exact h i
  · intro i hi
    have hne : i ≠ n := by
      rintro rfl
      exact nomatch hn.symm.trans hi
    rw [tag_setTag g n .text hne, hi]

theorem Ordinary.textKeys {g : Graph} (h : g.Ordinary) (entries : List (Nat × Nat)) :
    (g.textKeys entries).Ordinary ∧ g.KeepsMappings (g.textKeys entries) := by
  induction entries generalizing g with
  | nil => exact ⟨h, fun _ hn => hn⟩
  | cons e entries ih =>
      unfold Graph.textKeys
      rw [List.foldl_cons]
      split
      · next hdefault =>
          obtain ⟨hset, hkeeps⟩ := h.setText hdefault
          obtain ⟨hrest, hkeeps'⟩ := ih hset
          exact ⟨hrest, hkeeps.trans hkeeps'⟩
      · exact ih h

/-- A step of merging. -/
abbrev MergesTo (g : Graph) : Except Fault Graph → Prop :=
  Ends Fault.Ordinary fun g' => g'.Ordinary ∧ g.KeepsMappings g'

abbrev GivesEntries (g : Graph) : Except Fault (List (Nat × Nat) × Graph) → Prop :=
  Ends Fault.Ordinary fun p => p.2.Ordinary ∧ g.KeepsMappings p.2

structure Merging (fuel : Nat) : Prop where
  merge {g : Graph} {n : Nat} {merged : List (Nat × Nat)} (h : g.Ordinary)
    (hn : g.tag n = .mapping) : g.MergesTo (merge fuel n merged g)
  mergedFrom {g : Graph} {source : Nat} (h : g.Ordinary) :
    g.GivesEntries (mergedFrom fuel source g)
  mergedFromAll {g : Graph} {sources : List Nat} {merged : List (Nat × Nat)} (h : g.Ordinary) :
    g.GivesEntries (mergedFromAll fuel sources merged g)

theorem Ordinary.putInFront {g : Graph} (h : g.Ordinary) {n : Nat} (hn : g.tag n = .mapping)
    (merged : List (Nat × Nat)) :
    (g.putInFront n merged).Ordinary ∧ g.KeepsMappings (g.putInFront n merged) := by
  obtain ⟨hkeys, hkeeps⟩ := (h.setMapping hn (merged ++ g.entries n)).textKeys
    (merged ++ g.entries n)
  exact ⟨hkeys, (keepsMappings_setContent g n _).trans hkeeps⟩

namespace Merging

variable {fuel : Nat} {g : Graph}

theorem step_merge (ih : Merging fuel) (h : g.Ordinary) {n : Nat} (hn : g.tag n = .mapping)
    {merged : List (Nat × Nat)} : g.MergesTo (Graph.merge (fuel + 1) n merged g) := by
  unfold Graph.merge
  split
  · exact .ok (h.putInFront hn merged)
  · next source rest _ =>
      have hkeeps := keepsMappings_setContent g n (.mapping rest)
      refine (ih.mergedFrom (h.setMapping hn rest)).bind ?_
      rintro ⟨more, g'⟩ ⟨hg', hkeeps'⟩
      refine (ih.merge hg' (hkeeps' n (hkeeps n hn))).imp ?_
      rintro g'' ⟨hg'', hkeeps''⟩
      exact ⟨hg'', (hkeeps.trans hkeeps').trans hkeeps''⟩

theorem step_mergedFrom (ih : Merging fuel) (h : g.Ordinary) {source : Nat} :
    g.GivesEntries (Graph.mergedFrom (fuel + 1) source g) := by
  unfold Graph.mergedFrom
  split
  · next entries hcontent =>
      refine (ih.merge h (h.tag_of_content hcontent)).bind fun g' hg' => ?_
      exact .ok hg'
  · exact ih.mergedFromAll h
  · exact ends_invalid

theorem step_mergedFromAll (ih : Merging fuel) (h : g.Ordinary) {sources : List Nat}
    {merged : List (Nat × Nat)} :
    g.GivesEntries (Graph.mergedFromAll (fuel + 1) sources merged g) := by
  cases sources with
  | nil => exact .ok ⟨h, fun _ hn => hn⟩
  | cons source rest =>
      unfold Graph.mergedFromAll
      refine Ends.ite (fun hmapping => ?_) (fun _ => ends_invalid)
      refine (ih.merge h (h.tag_of_isMapping hmapping)).bind ?_
      rintro g' ⟨hg', hkeeps⟩
      refine (ih.mergedFromAll hg').imp ?_
      rintro p ⟨hp, hkeeps'⟩
      exact ⟨hp, hkeeps.trans hkeeps'⟩

end Merging

theorem merging (fuel : Nat) : Merging fuel := by
  induction fuel with
  | zero =>
      have hdeep := Fault.ordinary_tooDeep
      constructor
      · intro g n merged _ _
        exact .error hdeep
      · intro g source _
        exact .error hdeep
      · intro g sources merged _
        exact .error hdeep
  | succ fuel ih =>
      constructor
      · intro g n merged h hn
        exact ih.step_merge h hn
      · intro g source h
        exact ih.step_mergedFrom h
      · intro g sources merged h
        exact ih.step_mergedFromAll h

theorem mergesTo_flatten {g : Graph} {n : Nat} (h : g.Ordinary) (hn : g.tag n = .mapping) :
    g.MergesTo (g.flatten n) :=
  (merging _).merge h hn

end Graph

end NameCatalog.Yaml
