import NameCatalog.Proofs.Catalog.Loading

/-!
# Catalog files in another order

A catalog is built if and only if each of its files can be loaded. Its names are then the first
occurrences behind the built-in names, and every other occurrence is reported once, by the file or
by the merge. So the order of the files decides only where a name stands, and a file that was read
before adds nothing.
-/

namespace NameCatalog

namespace Catalog

variable {host : Host} {paths : List Path} {c : Catalog}

/-- The names of the catalog that a path leads to, if there is one. -/
def namesIn (host : Host) (p : Path) : List Identifier :=
  ((load host p).result.toOption.map names).getD []

theorem flatMap_names_of_mapM {cs : List Catalog}
    (h : (paths.mapM fun p => (load host p).result) = .ok cs) :
    cs.flatMap names = paths.flatMap (namesIn host) := by
  let namesOf (r : Except LoadFault Catalog) : List Identifier := (r.toOption.map names).getD []
  calc
    cs.flatMap names = (cs.map Except.ok).flatMap namesOf := by
      rw [List.flatMap_map]
      rfl
    _ = (paths.map fun p => (load host p).result).flatMap namesOf := by
      rw [mapM_eq_ok_iff.mp h]
    _ = paths.flatMap (namesIn host) := List.flatMap_map ..

theorem exists_build_iff :
    (∃ c, (build host paths).result = .ok c) ↔ ∀ p ∈ paths, ∃ c, (load host p).result = .ok c := by
  rw [← exists_mapM_eq_ok_iff, result_build]
  constructor
  · rintro ⟨c, hc⟩
    obtain ⟨cs, hcs, -⟩ := map_eq_ok_iff.mp hc
    exact ⟨cs, hcs⟩
  · rintro ⟨cs, hcs⟩
    exact ⟨_, map_eq_ok_iff.mpr ⟨cs, hcs, rfl⟩⟩

theorem names_build (h : (build host paths).result = .ok c) :
    c.names = firsts (Builtin.names ++ paths.flatMap (namesIn host)) := by
  rw [result_build] at h
  obtain ⟨cs, hcs, rfl⟩ := map_eq_ok_iff.mp h
  rw [names_merge, List.flatMap_cons, flatMap_names_of_mapM hcs]
  rfl

theorem repeated_build (h : (build host paths).result = .ok c) :
    (build host paths).repeated =
      paths.flatMap (fun p => (load host p).repeated) ++
        repeats (Builtin.names ++ paths.flatMap (namesIn host)) := by
  rw [result_build] at h
  obtain ⟨cs, hcs, -⟩ := map_eq_ok_iff.mp h
  rw [Logged.repeated, build_of_ok (mapM_eq_ok_iff.mp hcs), List.filterMap_append,
    List.filterMap_flatMap, ← Logged.repeated, repeated_merge, List.flatMap_cons,
    flatMap_names_of_mapM hcs]
  rfl

/-! ## Built-in names in front -/

theorem builtin_prefix_names_build (h : (build host paths).result = .ok c) :
    Builtin.names <+: c.names := by
  have hbuiltin : firsts Builtin.names = Builtin.names := Builtin.catalog.firsts_names
  rw [names_build h, firsts_append, hbuiltin]
  exact List.prefix_append _ _

/-! ## Repeated paths -/

/-- The first of two equal paths has failed already, or it has brought all the names. -/
theorem names_build_append_cons {before : List Path} {p : Path} (hp : p ∈ before)
    (after : List Path) :
    (build host (before ++ p :: after)).result.map names =
      (build host (before ++ after)).result.map names := by
  simp only [result_build, List.mapM_append, List.mapM_cons]
  cases hbefore : before.mapM fun q => (load host q).result with
  | error f => rfl
  | ok cs =>
      obtain ⟨c, hc⟩ := exists_mapM_eq_ok_iff.mp ⟨cs, hbefore⟩ p hp
      have hmem : c ∈ cs := by
        have hok : Except.ok c ∈ cs.map (Except.ok (ε := LoadFault)) := by
          rw [← mapM_eq_ok_iff.mp hbefore, ← hc]
          exact List.mem_map_of_mem hp
        simpa using hok
      rw [hc]
      cases hafter : after.mapM fun q => (load host q).result with
      | error f => rfl
      | ok ds =>
          have hold : ∀ x ∈ c.names, x ∈ Builtin.catalog.names ++ cs.flatMap names := by
            intro x hx
            exact List.mem_append_right _ (List.mem_flatMap.mpr ⟨c, hmem, hx⟩)
          have hnames := firsts_append_append_of_subset hold (ds.flatMap names)
          simp only [List.append_assoc] at hnames
          refine congrArg Except.ok ?_
          simpa [names_merge] using hnames

theorem names_build_append_firstsAfter (seen rest : List Path) :
    (build host (seen ++ firstsAfter seen rest)).result.map names =
      (build host (seen ++ rest)).result.map names := by
  induction rest generalizing seen with
  | nil => rfl
  | cons p rest ih =>
      by_cases hp : p ∈ seen
      · rw [firstsAfter, if_pos hp, ih, names_build_append_cons hp]
      · have hseen : ∀ q, q ∈ p :: seen ↔ q ∈ seen ++ [p] := by
          intro q
          simp [or_comm]
        have hlater := ih (seen ++ [p])
        rw [firstsAfter, if_neg hp, firstsAfter_congr rest hseen]
        simpa using hlater

/-- Whether files can be loaded does not depend on their order, and when they can, the built-in
names come first in any order, the names are the same, and each name is reported as often, in the
loads and the merge together. A path that comes again may be left out wherever it does, and so may
all such paths at once: the names stay the same in the same order, or the fault does. -/
theorem build_reordered (host : Host) (paths : List Path) :
    (∀ paths' : List Path, paths.Perm paths' →
      ((∃ c, (build host paths).result = .ok c) ↔ ∃ c, (build host paths').result = .ok c) ∧
        ∀ c c' : Catalog, (build host paths).result = .ok c →
          (build host paths').result = .ok c' →
          Builtin.names <+: c.names ∧ Builtin.names <+: c'.names ∧ c.names.Perm c'.names ∧
            (build host paths).repeated.Perm (build host paths').repeated) ∧
      (∀ (before : List Path) (p : Path) (after : List Path), paths = before ++ p :: after →
        p ∈ before → (build host (before ++ after)).result.map names =
          (build host paths).result.map names) ∧
      (build host paths.eraseDups).result.map names = (build host paths).result.map names := by
  refine ⟨?_, ?_, ?_⟩
  · intro paths' hperm
    refine ⟨?_, ?_⟩
    · rw [exists_build_iff, exists_build_iff]
      exact forall_congr' fun p => imp_congr_left hperm.mem_iff
    · intro c c' hc hc'
      have hall : (Builtin.names ++ paths.flatMap (namesIn host)).Perm
          (Builtin.names ++ paths'.flatMap (namesIn host)) :=
        (hperm.flatMap_right _).append_left _
      refine ⟨builtin_prefix_names_build hc, builtin_prefix_names_build hc', ?_, ?_⟩
      · rw [names_build hc, names_build hc']
        exact firsts_perm hall
      · rw [repeated_build hc, repeated_build hc']
        exact (hperm.flatMap_right _).append (repeats_perm hall)
  · rintro before p after rfl hp
    exact (names_build_append_cons hp after).symm
  · have hall := @names_build_append_firstsAfter host [] paths
    rwa [List.nil_append, List.nil_append, ← firsts, firsts_eq_eraseDups] at hall

/-- One file repeats a built-in name and the other a name of its own, and that one is read twice. -/
theorem build_reordered_repeated_file :
    let core := Path.ofString "core.yaml"
    let more := Path.ofString "more.yaml"
    let coreText := "packages:\n- package: a.b\n  names: [First, First, Second]\n"
    let moreText := "packages:\n- package: androidx.compose.runtime\n  names: [remember, Key]\n"
    let host : Host :=
      .ofList [(core, .file coreText.toUTF8.toList), (more, .file moreText.toUTF8.toList)]
    ∃ c c' : Catalog, (build host [core, more, core]).result = .ok c ∧
      (build host [more, core, core]).result = .ok c' ∧ c.names ≠ c'.names ∧
      (Builtin.names <+: c.names ∧ Builtin.names <+: c'.names ∧ c.names.Perm c'.names ∧
        (build host [core, more, core]).repeated.Perm
          (build host [more, core, core]).repeated) ∧
      (build host [core, more]).result.map names =
        (build host [core, more, core]).result.map names := by
  intro core more coreText moreText host
  have hloads : ∀ p ∈ [core, more], ∃ c, (load host p).result = .ok c := by
    have hnone : ∀ p ∈ [core, more], (fault? (load host p).result).isNone = true := by
      decide +kernel
    intro p hp
    exact exists_ok_of_isNone (hnone p hp)
  have hall : [core, more, core] ⊆ [core, more] := by
    simp
  obtain ⟨c, hc⟩ : ∃ c, (build host [core, more, core]).result = .ok c :=
    exists_build_iff.mpr fun p hp => hloads p (hall hp)
  obtain ⟨hperm, hrepeat, -⟩ := build_reordered host [core, more, core]
  obtain ⟨hiff, hsame⟩ := hperm [more, core, core] (.swap more core [core])
  obtain ⟨c', hc'⟩ := hiff.mp ⟨c, hc⟩
  refine ⟨c, c', hc, hc', ?_, hsame c c' hc hc', ?_⟩
  · have hdiffer : firsts (Builtin.names ++ [core, more, core].flatMap (namesIn host)) ≠
        firsts (Builtin.names ++ [more, core, core].flatMap (namesIn host)) := by
      decide +kernel
    rwa [← names_build hc, ← names_build hc'] at hdiffer
  · exact hrepeat [core, more] core [] rfl List.mem_cons_self

end Catalog

end NameCatalog
