import Mathlib.Data.List.Induction
import NameCatalog.Proofs.Catalog.Reordering
import NameCatalog.Settings.Basic

/-!
# What each catalog adds to a merge

A merge has the names of its catalogs one after the other, less those that a catalog in front has
already. More catalogs therefore only add names behind those that are there, and the built-in names
come first in every catalog that is built.
-/

namespace NameCatalog.Catalog

/-- The names of a catalog that none of the catalogs in front of it has. -/
def newNames (before : List Catalog) (c : Catalog) : List Identifier :=
  c.names.filter fun x => ∀ d ∈ before, x ∉ d.names

theorem newNames_sublist (before : List Catalog) (c : Catalog) :
    (newNames before c).Sublist c.names := List.filter_sublist

theorem mem_names_merge {cs : List Catalog} {x : Identifier} :
    x ∈ (merge cs).result.names ↔ ∃ c ∈ cs, x ∈ c.names := by
  rw [names_merge, mem_firsts, List.mem_flatMap]

/-- A further catalog adds its new names behind all others. -/
theorem names_merge_concat (cs : List Catalog) (c : Catalog) :
    (merge (cs ++ [c])).result.names = (merge cs).result.names ++ newNames cs c := by
  rw [names_merge, names_merge, List.flatMap_append, List.flatMap_singleton, firsts_append,
    firstsAfter_eq_filter c.nodup, newNames]
  apply congrArg
  apply List.filter_congr
  intro x _
  simp

theorem names_merge_eq_newNames (cs : List Catalog) :
    (merge cs).result.names = cs.zipIdx.flatMap fun c => newNames (cs.take c.2) c.1 := by
  induction cs using List.reverseRecOn with
  | nil => rfl
  | append_singleton cs c ih =>
      have hfront : cs.zipIdx.flatMap (fun p => newNames ((cs ++ [c]).take p.2) p.1) =
          cs.zipIdx.flatMap fun p => newNames (cs.take p.2) p.1 := by
        apply List.flatMap_congr
        intro p hp
        have hplace : p.2 < cs.length := List.snd_lt_of_mem_zipIdx hp
        rw [List.take_append_of_le_length (Nat.le_of_lt hplace)]
      rw [names_merge_concat, ih, List.zipIdx_append, List.flatMap_append, hfront]
      simp

theorem names_merge_prefix_append (cs ds : List Catalog) :
    (merge cs).result.names <+: (merge (cs ++ ds)).result.names := by
  rw [names_merge, names_merge, List.flatMap_append, firsts_append]
  exact List.prefix_append _ _

theorem names_prefix_merge (c : Catalog) (cs : List Catalog) :
    c.names <+: (merge (c :: cs)).result.names := by
  have hfirst := names_merge_prefix_append [c] cs
  rw [names_merge, List.flatMap_singleton, firsts_names] at hfirst
  exact hfirst

/-- The names of files stand behind the built-in names, and none of them is one of those. -/
theorem names_build_eq_append {host : Host} {paths : List Path} {c : Catalog}
    (h : (build host paths).result = .ok c) :
    ∃ added, c.names = Builtin.names ++ added ∧ ∀ x ∈ added, x ∉ Builtin.names := by
  obtain ⟨added, hadded⟩ := builtin_prefix_names_build h
  have hnodup := c.nodup
  rw [← hadded, List.nodup_append] at hnodup
  exact ⟨added, hadded.symm, fun x hx hbuiltin => hnodup.2.2 x hbuiltin x hx rfl⟩

/-- The names of a merge are, catalog by catalog and in the order of each, those that no catalog in
front has; so there are no repeats among them, and a name is there if and only if a catalog has it.
All names of the first catalog come first, and each catalog adds some of its names in its own order.
So whatever the settings and the files are, a catalog that is built from them begins with the
built-in names, and no name from a file is one of these. -/
theorem merge_adds_new_names :
    (∀ cs : List Catalog,
      (merge cs).result.names = cs.zipIdx.flatMap (fun c => newNames (cs.take c.2) c.1) ∧
      (merge cs).result.names.Nodup ∧
      ∀ x, x ∈ (merge cs).result.names ↔ ∃ c ∈ cs, x ∈ c.names) ∧
    (∀ (c : Catalog) (cs : List Catalog), c.names <+: (merge (c :: cs)).result.names) ∧
    (∀ (before : List Catalog) (c : Catalog), (newNames before c).Sublist c.names) ∧
    ∀ (host : Host) (settings : Settings) (c : Catalog),
      (build host settings.catalogFiles).result = .ok c →
        ∃ added, c.names = Builtin.names ++ added ∧ ∀ x ∈ added, x ∉ Builtin.names := by
  refine ⟨?_, names_prefix_merge, newNames_sublist, fun host settings c => names_build_eq_append⟩
  intro cs
  exact ⟨names_merge_eq_newNames cs, (merge cs).result.nodup, fun x => mem_names_merge⟩

/-- A file that gives a built-in name again, in front of a name of its own. -/
theorem merge_adds_new_names_behind_builtin :
    let core := Path.ofString "core.yaml"
    let text := "packages:\n- package: androidx.compose.runtime\n  names: [remember, Key]\n"
    let host : Host := .ofList [(core, .file text.toUTF8.toList)]
    let settings : Settings := ⟨.info, [core]⟩
    ∃ c : Catalog, (build host settings.catalogFiles).result = .ok c ∧ c.size = 4 ∧
      ∃ added, c.names = Builtin.names ++ added ∧ ∀ x ∈ added, x ∉ Builtin.names := by
  intro core text host settings
  have hnone : (fault? (load host core).result).isNone = true := by
    decide +kernel
  obtain ⟨c, hc⟩ : ∃ c, (build host settings.catalogFiles).result = .ok c := by
    apply exists_build_iff.mpr
    intro p hp
    obtain rfl : p = core := List.mem_singleton.mp hp
    exact exists_ok_of_isNone hnone
  have hsize : (firsts (Builtin.names ++ [core].flatMap (namesIn host))).length = 4 := by
    decide +kernel
  rw [← names_build hc] at hsize
  exact ⟨c, hc, hsize, merge_adds_new_names.2.2.2 host settings c hc⟩

end NameCatalog.Catalog
