import NameCatalog.Catalog.Basic
import NameCatalog.Proofs.Catalog.FirstOccurrences
import NameCatalog.Proofs.Name.Rendering

/-!
# Internal names as keys

No two identifiers share an internal name, so a catalog may be searched and cleaned by internal
names alone.
-/

namespace NameCatalog.Catalog

theorem internalClassName_mem_iff (c : Catalog) (x : Identifier) :
    x.internalClassName ∈ c.internalClassNames ↔ x ∈ c.names :=
  List.mem_map_of_injective fun _ _ => Identifier.internalClassName_injective

theorem internalClassNames_nodup (c : Catalog) : c.internalClassNames.Nodup :=
  c.nodup.map fun _ _ => Identifier.internalClassName_injective

/-- Dropping repeated identifiers drops exactly the repeated internal names. -/
theorem internalClassNames_ofNames (source : Text) (names : List Identifier) :
    (ofNames source names).result.internalClassNames =
      (names.map Identifier.internalClassName).eraseDups := by
  have hinjective : Function.Injective Identifier.internalClassName :=
    fun _ _ => Identifier.internalClassName_injective
  rw [← firsts_eq_eraseDups, firsts_map hinjective]
  rfl

/-- Internal names tell identifiers apart; hence no catalog lists one twice, a catalog contains what
it lists by internal name, and the names of a new catalog are the first of each internal name. -/
theorem internalClassName_is_key :
    (∀ x y : Identifier, x.internalClassName = y.internalClassName ↔ x = y) ∧
      (∀ c : Catalog, c.internalClassNames.Nodup ∧
        ∀ x, c.contains x = true ↔ x.internalClassName ∈ c.internalClassNames) ∧
      ∀ (source : Text) (names : List Identifier),
        (ofNames source names).result.internalClassNames =
          (names.map Identifier.internalClassName).eraseDups := by
  refine ⟨?_, ?_, internalClassNames_ofNames⟩
  · intro x y
    constructor
    · exact Identifier.internalClassName_injective
    · rintro rfl
      rfl
  · intro c
    refine ⟨c.internalClassNames_nodup, ?_⟩
    intro x
    rw [internalClassName_mem_iff, contains, decide_eq_true_eq]

/-- Nested declarations and subpackages are told apart by the slash only. -/
example :
    let outer : Identifier := ⟨⟨["a"], by decide, by decide⟩, ⟨["b", "c"], by decide, by decide⟩⟩
    let inner : Identifier := ⟨⟨["a", "b"], by decide, by decide⟩, ⟨["c"], by decide, by decide⟩⟩
    outer.qualifiedName = inner.qualifiedName ∧
      outer.internalClassName ≠ inner.internalClassName := by
  decide

end NameCatalog.Catalog
