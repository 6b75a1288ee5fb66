import NameCatalog.Catalog.Basic
import NameCatalog.Proofs.Catalog.FirstOccurrences
import NameCatalog.Proofs.Text.Splitting

/-!
# Merges in several stages

Merging keeps first occurrences, so catalogs may be merged in groups beforehand: the names are the
same, and each repeat is reported once, by the merge that first sees it. Sources are put together
with commas, which does not depend on the grouping either.
-/

namespace NameCatalog

def Notice.repeated? : Notice → Option Identifier
  | .duplicate x _ => some x
  | .loaded _ _ => none

/-- The identifiers that were reported as repeated, in order. -/
def Logged.repeated {α : Type} (x : Logged α) : List Identifier :=
  x.notices.filterMap Notice.repeated?

namespace Catalog

theorem eq_of_names_of_source {a b : Catalog} (hnames : a.names = b.names)
    (hsource : a.source = b.source) : a = b := by
  cases a
  cases b
  cases hnames
  cases hsource
  rfl

theorem repeated_ofNames (source : Text) (xs : List Identifier) :
    (ofNames source xs).repeated = repeats xs := by
  have hsome : Notice.repeated? ∘ (fun x => Notice.duplicate x source) = some := rfl
  rw [Logged.repeated, ofNames, List.filterMap_map, hsome, List.filterMap_some]

theorem ofNames_of_nodup (source : Text) {xs : List Identifier} (h : xs.Nodup) :
    ofNames source xs = .silent ⟨xs, source, h⟩ := by
  simp only [ofNames, firsts_eq_self h, repeats_eq_nil h]
  rfl

theorem names_merge (cs : List Catalog) : (merge cs).result.names = firsts (cs.flatMap names) := rfl

theorem repeated_merge (cs : List Catalog) : (merge cs).repeated = repeats (cs.flatMap names) :=
  repeated_ofNames _ _

theorem firsts_names (c : Catalog) : firsts c.names = c.names := firsts_eq_self c.nodup

/-! ## Groups -/

theorem flatMap_names_flatten (groups : List (List Catalog)) :
    groups.flatten.flatMap names = groups.flatMap fun g => g.flatMap names := by
  rw [List.flatten_eq_flatMap, List.flatMap_assoc]
  rfl

/-- The merge of the merged groups goes through what is left of each group. -/
theorem flatMap_names_merged (groups : List (List Catalog)) :
    (groups.map fun g => (merge g).result).flatMap names =
      groups.flatMap fun g => firsts (g.flatMap names) :=
  List.flatMap_map ..

theorem names_merge_merged (groups : List (List Catalog)) :
    (merge (groups.map fun g => (merge g).result)).result.names =
      (merge groups.flatten).result.names := by
  rw [names_merge, names_merge, flatMap_names_merged, flatMap_names_flatten]
  exact firsts_flatMap_firsts (List.flatMap names) groups

theorem repeated_merge_merged (groups : List (List Catalog)) :
    (groups.flatMap (fun g => (merge g).repeated) ++
        (merge (groups.map fun g => (merge g).result)).repeated).Perm
      (merge groups.flatten).repeated := by
  simp only [repeated_merge, flatMap_names_merged, flatMap_names_flatten]
  exact repeats_flatMap_perm (List.flatMap names) groups

/-! ## Sources -/

/-- Two sources at least are never empty together, since a comma stands between them. -/
theorem mergedSource_cons_cons (a b : Catalog) (cs : List Catalog) :
    mergedSource (a :: b :: cs) = Text.join ", " ((a :: b :: cs).map source) := by
  have hne : Text.join ", " ((a :: b :: cs).map source) ≠ "" := by
    intro hempty
    have hlist := congrArg Text.toList hempty
    rw [Text.toList_join] at hlist
    simp [Text.joinWith] at hlist
  rw [mergedSource, if_neg hne]

theorem mergedSource_pair (a b : Catalog) :
    mergedSource [a, b] = a.source ++ ", " ++ b.source := by
  rw [mergedSource_cons_cons, ← Text.toList_inj, Text.toList_join]
  simp [Text.joinWith]

theorem mergedSource_triple (a b c : Catalog) :
    mergedSource [a, b, c] = a.source ++ ", " ++ b.source ++ ", " ++ c.source := by
  rw [mergedSource_cons_cons, ← Text.toList_inj, Text.toList_join]
  simp [Text.joinWith]

theorem source_merge (cs : List Catalog) : (merge cs).result.source = mergedSource cs := rfl

/-! ## Merges of two and three -/

theorem merge_merge_left (a b c : Catalog) :
    (merge [(merge [a, b]).result, c]).result = (merge [a, b, c]).result := by
  apply eq_of_names_of_source
  · have hstages := names_merge_merged [[a, b], [c]]
    rw [names_merge] at hstages ⊢
    simpa [names_merge, firsts_names] using hstages
  · rw [source_merge, source_merge, mergedSource_pair, mergedSource_triple, source_merge,
      mergedSource_pair]

theorem merge_merge_right (a b c : Catalog) :
    (merge [a, (merge [b, c]).result]).result = (merge [a, b, c]).result := by
  apply eq_of_names_of_source
  · have hstages := names_merge_merged [[a], [b, c]]
    rw [names_merge] at hstages ⊢
    simpa [names_merge, firsts_names] using hstages
  · rw [source_merge, source_merge, mergedSource_pair, mergedSource_triple, source_merge,
      mergedSource_pair]
    simp only [Text.append_assoc]

theorem names_merge_self (a : Catalog) : (merge [a, a]).result.names = a.names := by
  have hall : firsts (a.names ++ a.names) = firsts a.names :=
    firsts_append_of_subset fun _ hx => hx
  simpa [names_merge, firsts_names] using hall

theorem names_merge_again (a b : Catalog) :
    (merge [a, b, a]).result.names = (merge [a, b]).result.names := by
  have hall : firsts (a.names ++ b.names ++ a.names) = firsts (a.names ++ b.names) :=
    firsts_append_of_subset fun _ hx => List.mem_append_left _ hx
  simpa [names_merge] using hall

theorem names_merge_none_left (a : Catalog) :
    (merge [(merge []).result, a]).result.names = a.names := by
  simp [names_merge, firsts_names]

theorem names_merge_none_right (a : Catalog) :
    (merge [a, (merge []).result]).result.names = a.names := by
  simp [names_merge, firsts_names]

/-- A merge has the first occurrences of all names and reports all others. Merging in groups first
gives the same names, and the reports of all merges together are the same up to their order. Of
three catalogs it does not even matter for the source which two are merged first; merging with a
catalog again, or with no catalogs at all, adds no names. -/
theorem merge_regroups :
    (∀ cs : List Catalog, (merge cs).result.names = (cs.flatMap names).eraseDups ∧
        ((merge cs).result.names ++ (merge cs).repeated).Perm (cs.flatMap names)) ∧
      (∀ groups : List (List Catalog),
        (merge (groups.map fun g => (merge g).result)).result.names =
            (merge groups.flatten).result.names ∧
          (groups.flatMap (fun g => (merge g).repeated) ++
              (merge (groups.map fun g => (merge g).result)).repeated).Perm
            (merge groups.flatten).repeated) ∧
      (∀ a b c : Catalog,
        (merge [(merge [a, b]).result, c]).result = (merge [a, b, c]).result ∧
          (merge [a, (merge [b, c]).result]).result = (merge [a, b, c]).result) ∧
      (∀ a : Catalog, (merge [a, a]).result.names = a.names) ∧
      (∀ a b : Catalog, (merge [a, b, a]).result.names = (merge [a, b]).result.names) ∧
      ∀ a : Catalog, (merge [(merge []).result, a]).result.names = a.names ∧
        (merge [a, (merge []).result]).result.names = a.names := by
  refine ⟨?_, ?_, ?_, names_merge_self, names_merge_again, ?_⟩
  · intro cs
    rw [repeated_merge]
    exact ⟨firsts_eq_eraseDups _, firsts_append_repeats_perm _⟩
  · intro groups
    exact ⟨names_merge_merged groups, repeated_merge_merged groups⟩
  · intro a b c
    exact ⟨merge_merge_left a b c, merge_merge_right a b c⟩
  · intro a
    exact ⟨names_merge_none_left a, names_merge_none_right a⟩

/-- With fewer than two sources the grouping does show: what is empty is named. -/
example :
    let a : Catalog := ⟨[], "", by decide⟩
    (merge [(merge [a]).result, a]).result.source = "<empty>, " ∧
      (merge [a, a]).result.source = ", " := by
  decide

end Catalog

end NameCatalog
