import NameCatalog.Proofs.Yaml.Nodes

/-!
# The values of ordinary trees

In an ordinary tree the scalars have values or ordinary faults, and collections are what they look
like, so that the tree as a whole has a value or an ordinary fault.
-/

namespace NameCatalog.Yaml

/-- A value, or an ordinary fault on some level. -/
abbrev Outcome.Ordinary {α : Type} : Outcome α → Prop :=
  Ends (fun e : Nat × Fault => e.2.Ordinary) fun _ => True

namespace Outcome

variable {α β : Type}

theorem ordinary_both {x : Outcome α} {y : Outcome β} (hx : x.Ordinary) (hy : y.Ordinary) :
    (both x y).Ordinary := by
  cases hx with
  | ok _ =>
      cases hy with
      | ok _ => exact .ok trivial
      | error hf => exact .error hf
  | error he =>
      cases hy with
      | ok _ => exact .error he
      | error hf => exact Ends.ite (fun _ => .error he) (fun _ => .error hf)

theorem ordinary_map {x : Outcome α} (hx : x.Ordinary) (f : α → β) :
    Ordinary (x.map f) :=
  hx.map fun _ _ => trivial

theorem ordinary_cons {x : Outcome α} {xs : Outcome (List α)} (hx : x.Ordinary)
    (hxs : xs.Ordinary) : (cons x xs).Ordinary :=
  ordinary_map (ordinary_both hx hxs) _

theorem ordinary_invalid {level : Nat} : Ordinary (.error (level, .invalid) : Outcome α) :=
  .error Fault.ordinary_invalid

end Outcome

namespace Pending

structure Ordinary (p : Pending) : Prop where
  key : p.key.Ordinary
  value : p.value.Ordinary

theorem ordinary_outcomes (level : Nat) {ps : List Pending} (h : ∀ p ∈ ps, p.Ordinary) :
    (outcomes level ps).Ordinary := by
  induction ps with
  | nil => exact .ok trivial
  | cons p ps ih =>
      obtain ⟨hp, hps⟩ := List.forall_mem_cons.mp h
      have hentry : (p.outcome level).Ordinary := by
        refine Ends.ite (fun _ => ?_) (fun _ => Outcome.ordinary_invalid)
        exact Outcome.ordinary_both hp.key hp.value
      exact Outcome.ordinary_cons hentry (ih hps)

/-- Entries that are split off, merged ones and others. -/
abbrev Splits : Except Fault (List Pending × List Pending) → Prop :=
  Ends Fault.Ordinary fun p => (∀ q ∈ p.1, q.Ordinary) ∧ ∀ q ∈ p.2, q.Ordinary

theorem ordinary_joined (level : Nat) {r : Except Fault (List Pending × List Pending)}
    (h : Splits r) : (joined level r).Ordinary := by
  cases h with
  | ok h => exact ordinary_outcomes level (List.forall_mem_append.mpr h)
  | error hf => exact .error hf

end Pending

namespace Node

open Pending (Splits)

theorem ordinary_scalarOutcome (level : Nat) {tag : Tag} {s : Text} (h : tag.Fits s) :
    (scalarOutcome level tag s).Ordinary := by
  unfold scalarOutcome
  split
  · exact .ok trivial
  · next f hf => exact .error (h.of_error hf)

theorem ordinary_defaultKey (level : Nat) (n : Node) : (defaultKey level n).Ordinary := by
  unfold defaultKey
  split
  · exact .ok trivial
  · exact Outcome.ordinary_invalid

/-- What a node gives by itself, and what it gives when it is merged. -/
structure Gives (n : Node) : Prop where
  value (level : Nat) : (n.build level).Ordinary
  merged (level : Nat) :
    Ends Fault.Ordinary (fun ps => ∀ p ∈ ps, p.Ordinary) (mergedFrom level n)

theorem ordinary_buildItems (level : Nat) {items : List Node} (h : ∀ n ∈ items, n.Gives) :
    (buildItems level items).Ordinary := by
  induction items with
  | nil => exact .ok trivial
  | cons n items ih =>
      obtain ⟨hn, hitems⟩ := List.forall_mem_cons.mp h
      exact Outcome.ordinary_cons (hn.value level) (ih hitems)

theorem splits_splitEntries (level : Nat) {entries : List (Node × Node)}
    (hkeys : ∀ e ∈ entries, e.1.Gives) (hvalues : ∀ e ∈ entries, e.2.Gives) :
    Splits (splitEntries level entries) := by
  induction entries with
  | nil => exact .ok ⟨List.forall_mem_nil _, List.forall_mem_nil _⟩
  | cons e entries ih =>
      obtain ⟨k, v⟩ := e
      obtain ⟨hk, hkeys⟩ := List.forall_mem_cons.mp hkeys
      obtain ⟨hv, hvalues⟩ := List.forall_mem_cons.mp hvalues
      unfold splitEntries
      refine Ends.ite (fun _ => ?_) (fun _ => ?_)
      · refine (hv.merged level).bind fun here hhere => ?_
        refine (ih hkeys hvalues).bind ?_
        rintro ⟨merged, own⟩ ⟨hmerged, hown⟩
        exact .ok ⟨List.forall_mem_append.mpr ⟨hhere, hmerged⟩, hown⟩
      · refine (ih hkeys hvalues).bind ?_
        rintro ⟨merged, own⟩ ⟨hmerged, hown⟩
        have hkey : (if k.tag = .default then defaultKey level k else k.build level).Ordinary :=
          Ends.ite (fun _ => ordinary_defaultKey level k) (fun _ => hk.value level)
        exact .ok ⟨hmerged, List.forall_mem_cons.mpr ⟨⟨hkey, hv.value level⟩, hown⟩⟩

/-- A mapping in a sequence that is merged gives what it gives by itself. -/
theorem mergedFromAll_mapping (level : Nat) (anchor : Option Text) (tag : Tag)
    (entries : List (Node × Node)) (rest : List Node) :
    mergedFromAll level (mapping anchor tag entries :: rest) = do
      let here ← mergedFrom level (mapping anchor tag entries)
      return here :: (← mergedFromAll level rest) := by
  rw [mergedFromAll, mergedFrom]
  cases splitEntries level entries with
  | error f => rfl
  | ok p => rfl

theorem ends_mergedFromAll (level : Nat) {items : List Node} (h : ∀ n ∈ items, n.Gives) :
    Ends Fault.Ordinary (fun pss => ∀ ps ∈ pss, ∀ p ∈ ps, p.Ordinary)
      (mergedFromAll level items) := by
  induction items with
  | nil => exact .ok (List.forall_mem_nil _)
  | cons n items ih =>
      obtain ⟨hn, hitems⟩ := List.forall_mem_cons.mp h
      cases n with
      | scalar anchor tag text => exact ends_invalid
      | sequence anchor tag items => exact ends_invalid
      | aliasOf name => exact ends_invalid
      | mapping anchor tag entries =>
          rw [mergedFromAll_mapping]
          refine (hn.merged level).bind fun here hhere => ?_
          refine (ih hitems).bind fun rest hrest => ?_
          exact .ok (List.forall_mem_cons.mpr ⟨hhere, hrest⟩)

theorem Ordinary.gives {n : Node} (h : n.Ordinary) : n.Gives := by
  -- a collection builds its parts one level below, and is merged on its own level
  induction h with
  | scalar h => exact ⟨fun level => ordinary_scalarOutcome level h, fun _ => ends_invalid⟩
  | aliasOf => exact ⟨fun _ => Outcome.ordinary_invalid, fun _ => ends_invalid⟩
  | sequence _ ih =>
      refine ⟨fun level => ?_, fun level => ?_⟩
      · exact Outcome.ordinary_map (ordinary_buildItems (level + 1) ih) _
      · refine (ends_mergedFromAll level ih).bind fun pss hpss => .ok ?_
        intro p hp
        obtain ⟨ps, hps, hp⟩ := List.mem_flatten.mp hp
        exact hpss ps (List.mem_reverse.mp hps) p hp
  | mapping _ _ hkeys hvalues =>
      refine ⟨fun level => ?_, fun level => ?_⟩
      · have hsplit := splits_splitEntries (level + 1) hkeys hvalues
        exact Outcome.ordinary_map (Pending.ordinary_joined (level + 1) hsplit) _
      · refine (splits_splitEntries level hkeys hvalues).bind ?_
        rintro ⟨merged, own⟩ hsplit
        exact .ok (List.forall_mem_append.mpr hsplit)

end Node

end NameCatalog.Yaml
