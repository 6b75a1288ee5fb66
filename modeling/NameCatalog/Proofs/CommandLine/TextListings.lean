import NameCatalog.Proofs.CommandLine.JsonListings
import NameCatalog.Proofs.CommandLine.Listings

/-!
# Listings in text

The lines of a listing in text are the identifiers, each with a tab between its two names, as long
as no segment brings line feeds or tabs of its own. The listing in JSON tells the same names, as
long as no segment holds a pair of surrogates.
-/

namespace NameCatalog

/-! ## Characters of renderings -/

theorem Segments.mem_joined_iff {g : Segments} {sep c : CodePoint} (h : c ≠ sep) :
    c ∈ (g.joined sep).toList ↔ ∃ s ∈ g.toList, c ∈ s.toList := by
  rw [toList_joined]
  constructor
  · intro hc
    rcases Text.mem_joinWith hc with hsep | ⟨piece, hpiece, hc⟩
    · exact absurd (List.mem_singleton.mp hsep) h
    · obtain ⟨s, hs, rfl⟩ := List.mem_map.mp hpiece
      exact ⟨s, hs, hc⟩
  · rintro ⟨s, hs, hc⟩
    exact Text.mem_joinWith_of_mem [sep] (List.mem_map_of_mem hs) hc

namespace Identifier

def Lacks (x : Identifier) (c : CodePoint) : Prop :=
  ∀ s ∈ x.package.segments.toList ++ x.name.toList, c ∉ s.toList

instance (x : Identifier) (c : CodePoint) : Decidable (x.Lacks c) :=
  inferInstanceAs (Decidable (∀ s ∈ _, _))

theorem not_mem_render_iff {x : Identifier} {c : CodePoint} (h : c ∉ separators) (style : Style) :
    c ∉ (x.render style).toList ↔ x.Lacks c := by
  have hdot : c ≠ dot := by
    rintro rfl
    exact h (by decide)
  have hsep : c ≠ style.separator := by
    rintro rfl
    cases style <;> exact h (by decide)
  simp only [render, Package.render, dottedName, Text.toList_append, Text.toList_singleton,
    List.mem_append, List.mem_singleton, Segments.mem_joined_iff hsep,
    Segments.mem_joined_iff hdot, hsep, or_false, Lacks, not_or, not_exists, not_and, or_imp,
    forall_and]

/-- No segment holds a line feed, a tab or a pair of surrogates. -/
def IsPlain (x : Identifier) : Prop := x.Lacks '\n' ∧ x.Lacks '\t' ∧ x.PairFree

instance (x : Identifier) : Decidable x.IsPlain :=
  inferInstanceAs (Decidable (_ ∧ _ ∧ _))

end Identifier

namespace CommandLine

theorem toList_listingLine (x : Identifier) :
    (listingLine x).toList =
      x.qualifiedName.toList ++ .char '\t' :: x.internalClassName.toList := by
  simp [listingLine]

theorem not_mem_listingLine_iff {x : Identifier} {c : CodePoint} (htab : c ≠ '\t')
    (h : c ∉ separators) : c ∉ (listingLine x).toList ↔ x.Lacks c := by
  rw [toList_listingLine, List.mem_append, List.mem_cons, Identifier.qualifiedName,
    Identifier.internalClassName]
  simp only [Identifier.not_mem_render_iff h, htab, false_or, not_or, and_self]

/-- The tab between the names is the only one if and only if no segment has one. -/
theorem count_tab_listingLine_iff {x : Identifier} :
    (listingLine x).toList.count (.char '\t') = 1 ↔ x.Lacks '\t' := by
  have htab : .char '\t' ∉ separators := by
    decide
  have hjava := Identifier.not_mem_render_iff (x := x) htab .java
  have hinternal := Identifier.not_mem_render_iff (x := x) htab .internal
  rw [toList_listingLine, List.count_append, List.count_cons_self, Identifier.qualifiedName,
    Identifier.internalClassName]
  constructor
  · intro hcount
    exact hjava.mp (List.count_eq_zero.mp (by omega))
  · intro hlacks
    rw [List.count_eq_zero.mpr (hjava.mpr hlacks), List.count_eq_zero.mpr (hinternal.mpr hlacks)]

theorem listingLine_injective {x y : Identifier} (hx : x.Lacks '\t')
    (h : listingLine x = listingLine y) : x = y := by
  have htab : .char '\t' ∉ separators := by
    decide
  have hy : y.Lacks '\t' := by
    rw [← count_tab_listingLine_iff, ← h]
    exact count_tab_listingLine_iff.mpr hx
  have hparts {z : Identifier} (hz : z.Lacks '\t') :
      ∀ piece ∈ [z.qualifiedName.toList, z.internalClassName.toList], .char '\t' ∉ piece := by
    simp only [List.forall_mem_cons, List.not_mem_nil, false_implies, implies_true, and_true]
    exact ⟨(Identifier.not_mem_render_iff htab .java).mpr hz,
      (Identifier.not_mem_render_iff htab .internal).mpr hz⟩
  have hjoined (z : Identifier) : (listingLine z).toList =
      Text.joinWith ['\t'] [z.qualifiedName.toList, z.internalClassName.toList] := by
    simp [toList_listingLine, Text.joinWith]
  have hlines := congrArg Text.toList h
  rw [hjoined, hjoined] at hlines
  have hnames := Text.joinWith_injective (List.cons_ne_nil _ _) (List.cons_ne_nil _ _) (hparts hx)
    (hparts hy) hlines
  refine Identifier.internalClassName_injective (Text.toList_inj.mp ?_)
  exact (List.cons.inj (List.cons.inj hnames).2).1

/-! ## Lines -/

def lines (c : Catalog) : List (List CodePoint) := Text.pieces '\n' (listed c .text).toList

theorem toList_listed (c : Catalog) :
    (listed c .text).toList =
      Text.joinWith ['\n'] (c.names.map fun x => (listingLine x).toList) := by
  have hfeed : Text.toList "\n" = [.char '\n'] := rfl
  rw [listed, Text.toList_join, List.map_map, hfeed]
  rfl

theorem newline_not_mem_listingLine_iff {x : Identifier} :
    .char '\n' ∉ (listingLine x).toList ↔ x.Lacks '\n' :=
  not_mem_listingLine_iff (by decide) (by decide)

theorem lines_eq {c : Catalog} (hne : c.names ≠ []) (h : ∀ x ∈ c.names, x.Lacks '\n') :
    lines c = c.names.map fun x => (listingLine x).toList := by
  rw [lines, toList_listed]
  refine Text.pieces_joinWith (by simpa using hne) ?_
  intro line hline
  obtain ⟨x, hx, rfl⟩ := List.mem_map.mp hline
  exact newline_not_mem_listingLine_iff.mpr (h x hx)

/-- There are as many lines as names if and only if no segment has a line feed. -/
theorem length_lines_iff {c : Catalog} (hne : c.names ≠ []) :
    (lines c).length = c.size ↔ ∀ x ∈ c.names, x.Lacks '\n' := by
  constructor
  · intro hlength x hx
    have hlines : (c.names.map fun x => (listingLine x).toList) ≠ [] := by
      simpa using hne
    have hall := Text.length_pieces_joinWith '\n' hlines
    rw [← toList_listed, ← lines, hlength, List.length_map, Catalog.size] at hall
    have hnone : (c.names.map fun x => (listingLine x).toList).flatten.count (.char '\n') = 0 := by
      omega
    refine newline_not_mem_listingLine_iff.mp fun hfeed => List.count_eq_zero.mp hnone ?_
    exact List.mem_flatten_of_mem (List.mem_map_of_mem hx) hfeed
  · intro h
    rw [lines_eq hne h, List.length_map, Catalog.size]

/-! ## Agreement -/

/-- A line is the two names of an object, with the only tab of the line between them. -/
def IsLineOf (line : List CodePoint) (v : Json) : Prop :=
  ∃ q n : Text, v.get? "qualified_name" = some (.text q) ∧
    v.get? "internal_class_name" = some (.text n) ∧
    line = q.toList ++ .char '\t' :: n.toList ∧ line.count (.char '\t') = 1

theorem isLineOf_decoded_iff {line : List CodePoint} {x : Identifier} :
    IsLineOf line (decoded x) ↔ line = (listingLine x).toList ∧ x.Lacks '\t' := by
  have hq : (decoded x).get? "qualified_name" = some (.text x.qualifiedName) := by
    rfl
  have hn : (decoded x).get? "internal_class_name" = some (.text x.internalClassName) := by
    rfl
  rw [← count_tab_listingLine_iff, toList_listingLine]
  constructor
  · rintro ⟨q, n, hq', hn', rfl, hcount⟩
    rw [hq] at hq'
    rw [hn] at hn'
    cases hq'
    cases hn'
    exact ⟨rfl, hcount⟩
  · rintro ⟨rfl, hcount⟩
    exact ⟨_, _, hq, hn, rfl, hcount⟩

/-- The listings of a catalog tell the same: each line tells what the object in its place tells. -/
def ListingsAgree (c : Catalog) : Prop :=
  ∃ objects : List Json, Json.Decodes (listed c .json) (.array objects) ∧
    objects.length = c.size ∧ List.Forall₂ IsLineOf (lines c) objects

theorem listingsAgree_iff {c : Catalog} (hne : c.names ≠ []) :
    ListingsAgree c ↔ ∀ x ∈ c.names, x.IsPlain := by
  constructor
  · rintro ⟨objects, hdecodes, hlength, hlines⟩
    have hfeeds := (length_lines_iff hne).mp (hlines.length_eq.trans hlength)
    cases hdecodes.unique (decodes_listed c)
    rw [lines_eq hne hfeeds, List.forall₂_map_left_iff, List.forall₂_map_right_iff,
      List.forall₂_same] at hlines
    intro x hx
    obtain ⟨hline, htab⟩ := isLineOf_decoded_iff.mp (hlines x hx)
    have hjoined : x.withPairsJoined = x :=
      listingLine_injective htab (Text.toList_inj.mp hline.symm)
    rw [hjoined] at htab
    exact ⟨hfeeds x hx, htab, Identifier.withPairsJoined_eq_self_iff.mp hjoined⟩
  · intro hplain
    have hdecodes := decodes_listed c
    rw [← Function.comp_def, ← List.map_map,
      map_withPairsJoined fun x hx => (hplain x hx).2.2] at hdecodes
    refine ⟨_, hdecodes, List.length_map _, ?_⟩
    rw [lines_eq hne fun x hx => (hplain x hx).1, List.forall₂_map_left_iff,
      List.forall₂_map_right_iff, List.forall₂_same]
    exact fun x hx => isLineOf_decoded_iff.mpr ⟨rfl, (hplain x hx).2.1⟩

/-- Every listing has the built-in names. -/
theorem names_ne_nil_of_catalogOf {settings : Settings} {host : Host} {further : List Value}
    {c : Catalog} (h : (catalogOf settings host further).result = .ok c) : c.names ≠ [] := by
  rw [catalogOf, Logged.result_andThen, Catalog.result_build] at h
  obtain ⟨built, hbuilt, h⟩ := bind_eq_ok_iff.mp h
  obtain ⟨loaded, -, rfl⟩ := map_eq_ok_iff.mp hbuilt
  rw [Logged.result_andThen] at h
  obtain ⟨added, -, h⟩ := bind_eq_ok_iff.mp h
  rw [← Except.ok.inj h]
  have hfirst : Builtin.composable ∈ (Catalog.merge (Builtin.catalog :: loaded)).result.names := by
    rw [Catalog.names_merge, mem_firsts, List.flatMap_cons]
    exact List.mem_append_left _ List.mem_cons_self
  refine List.ne_nil_of_mem (a := Builtin.composable) ?_
  rw [Catalog.names_merge, mem_firsts, List.flatMap_cons]
  exact List.mem_append_left _ hfirst

/-- The listings in text and in JSON agree, line by line, for exactly those catalogs none of whose
segments holds a line feed, a tab or a pair of surrogates. -/
theorem text_listing_agrees {settings : Settings} {host : Host} {further : List Value}
    {c : Catalog} (h : (catalogOf settings host further).result = .ok c) :
    ListingsAgree c ↔ ∀ x ∈ c.names, x.IsPlain :=
  listingsAgree_iff (names_ne_nil_of_catalogOf h)

/-- A file with one more name, which is quoted and has a blank in it. -/
theorem text_listing_agrees_blank :
    let text := "packages:\n- package: a.b\n  names: ['C D']\n"
    let host : Host := .ofList [(Path.ofString "names.yaml", .file text.toUTF8.toList)]
    ∃ c : Catalog, (catalogOf ⟨.info, []⟩ host [.text "names.yaml"]).result = .ok c ∧
      c.size = 4 ∧ (∀ x ∈ c.names, x.IsPlain) ∧ ListingsAgree c := by
  intro text host
  let name : Identifier := ⟨⟨⟨["a", "b"], by decide, by decide⟩⟩, ⟨["C D"], by decide, by decide⟩⟩
  have hlisted : (catalogOf ⟨.info, []⟩ host [.text "names.yaml"]).result.toOption.map
      Catalog.names = some (Builtin.names ++ [name]) := by
    decide +kernel
  have hplain : ∀ x ∈ Builtin.names ++ [name], x.IsPlain := by
    decide +kernel
  obtain ⟨c, hc, hnames⟩ := toOption_map_eq_some_iff.mp hlisted
  rw [← hnames] at hplain
  refine ⟨c, hc, ?_, hplain, (text_listing_agrees hc).mpr hplain⟩
  rw [Catalog.size, hnames]
  rfl

/-- A quoted name with a line feed makes two more lines, one for each of its renderings. -/
theorem text_listing_breaks_lines :
    let text := "packages:\n- package: a\n  names: [\"B\\nC\"]\n"
    let host : Host := .ofList [(Path.ofString "names.yaml", .file text.toUTF8.toList)]
    ∃ c : Catalog, (catalogOf ⟨.info, []⟩ host [.text "names.yaml"]).result = .ok c ∧
      c.size = 4 ∧ (lines c).length = 6 ∧ ¬ ListingsAgree c := by
  intro text host
  let name : Identifier := ⟨⟨⟨["a"], by decide, by decide⟩⟩, ⟨["B\nC"], by decide, by decide⟩⟩
  have hlisted : (catalogOf ⟨.info, []⟩ host [.text "names.yaml"]).result.toOption.map
      Catalog.names = some (Builtin.names ++ [name]) := by
    decide +kernel
  have hfeeds : (Text.joinWith [.char '\n'] ((Builtin.names ++ [name]).map fun x =>
      (listingLine x).toList)).count (.char '\n') = 5 := by
    decide +kernel
  obtain ⟨c, hc, hnames⟩ := toOption_map_eq_some_iff.mp hlisted
  have hsize : c.size = 4 := by
    rw [Catalog.size, hnames]
    rfl
  have hlength : (lines c).length = 6 := by
    rw [lines, Text.length_pieces, toList_listed, hnames, hfeeds]
  refine ⟨c, hc, hsize, hlength, ?_⟩
  rintro ⟨objects, -, hobjects, hlines⟩
  have hsame := hlines.length_eq
  rw [hlength, hobjects, hsize] at hsame
  cases hsame

end CommandLine

end NameCatalog
