import Mathlib.Data.List.Count
import NameCatalog.Proofs.Catalog.Merging

/-!
# Names given more than once

A catalog keeps a name at the first place where it is given and drops it at every other place. Each
drop is reported, in the order of the places, so that the reports tell how often every name was
given.
-/

namespace NameCatalog.Catalog

theorem names_ofNames (source : Text) (names : List Identifier) :
    (ofNames source names).result.names = picked (fun before x => x ∉ before) names :=
  firsts_eq_picked names

theorem notices_ofNames (source : Text) (names : List Identifier) :
    (ofNames source names).notices =
      (picked (fun before x => x ∈ before) names).map (.duplicate · source) := by
  rw [ofNames, repeats_eq_picked]

theorem length_notices_ofNames (source : Text) (names : List Identifier) :
    (ofNames source names).result.names.length + (ofNames source names).notices.length =
      names.length := by
  rw [ofNames, List.length_map]
  exact length_firsts_add_length_repeats names

theorem count_duplicate_ofNames (source : Text) (names : List Identifier) (x : Identifier) :
    (ofNames source names).notices.count (.duplicate x source) = names.count x - 1 := by
  have hinjective : Function.Injective (Notice.duplicate · source) :=
    fun _ _ h => (Notice.duplicate.inj h).1
  calc
    (ofNames source names).notices.count (.duplicate x source) = (repeats names).count x :=
      List.count_map_of_injective _ _ hinjective x
    _ = names.count x - 1 := count_repeats x names

/-- Of the names given for a catalog, those are kept that are not in front of their place already:
the same names without repeats, and all of them in their places when none is repeated. There is one
warning for each other place, in order, with the name that is dropped there and the source; together
they are as many as there are names less, and they name each identifier once less than it was
given. -/
theorem ofNames_keeps_first (source : Text) (names : List Identifier) :
    (ofNames source names).result.names = picked (fun before x => x ∉ before) names ∧
      ((∀ x, x ∈ (ofNames source names).result.names ↔ x ∈ names) ∧
        (ofNames source names).result.names.Nodup ∧
        ((ofNames source names).result.names = names ↔ names.Nodup)) ∧
      (ofNames source names).notices.map Notice.message =
        (picked (fun before x => x ∈ before) names).map (fun x =>
          ⟨.warning, "lintnames.catalog.schemas",
            "Duplicate name " ++ x.qualifiedName ++ " in " ++ source ++ " (keeping first)"⟩) ∧
      (ofNames source names).result.names.length + (ofNames source names).notices.length =
        names.length ∧
      ∀ x, (ofNames source names).notices.count (.duplicate x source) = names.count x - 1 := by
  refine ⟨names_ofNames source names, ⟨fun x => mem_firsts, nodup_firsts names, firsts_eq_self_iff⟩,
    ?_, length_notices_ofNames source names, count_duplicate_ofNames source names⟩
  rw [notices_ofNames, List.map_map]
  rfl

/-- Equal Java names alone do not make a repeat. -/
example :
    let outer : Identifier := ⟨⟨["a"], by decide, by decide⟩, ⟨["b", "c"], by decide, by decide⟩⟩
    let inner : Identifier := ⟨⟨["a", "b"], by decide, by decide⟩, ⟨["c"], by decide, by decide⟩⟩
    (ofNames "" [outer, inner, outer]).result.names = [outer, inner] ∧
      (ofNames "" [outer, inner, outer]).notices = [.duplicate outer ""] := by
  decide

end NameCatalog.Catalog
