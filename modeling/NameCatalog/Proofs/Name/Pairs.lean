import NameCatalog.Proofs.Name.Rendering
import NameCatalog.Proofs.Text.Surrogates

/-!
# Pairs of surrogates in names

Joining pairs in every segment of an identifier joins them in all of its renderings: no separator is
a surrogate, and none comes in by joining. So an identifier with its pairs joined is one again.
-/

namespace NameCatalog

namespace Text

theorem toList_withPairsJoined (s : Text) :
    (withPairsJoined s).toList = joinPairs s.toList :=
  Text.toList_ofList

theorem withPairsJoined_eq_self_iff {s : Text} : withPairsJoined s = s ↔ PairFree s.toList := by
  rw [← Text.toList_inj, toList_withPairsJoined, joinPairs_eq_self_iff]

theorem joinPairs_eq_nil_iff {cs : List CodePoint} : joinPairs cs = [] ↔ cs = [] := by
  fun_cases joinPairs cs <;> simp

theorem withPairsJoined_ne_empty {s : Text} (h : s ≠ "") : withPairsJoined s ≠ "" := by
  intro hempty
  have hchars := congrArg Text.toList hempty
  rw [toList_withPairsJoined, Text.toList_empty, joinPairs_eq_nil_iff] at hchars
  exact h (Text.toList_eq_nil_iff.mp hchars)

/-- Parts on both sides of a character that is no surrogate are joined on their own. -/
theorem withPairsJoined_append (s t : Text) {sep : CodePoint}
    (h : sep.isSurrogate = false) :
    withPairsJoined (s ++ Text.singleton sep ++ t) =
      withPairsJoined s ++ Text.singleton sep ++ withPairsJoined t := by
  refine Text.toList_injective ?_
  have hjoin := joinPairs_append_cons s.toList h t.toList
  simpa [toList_withPairsJoined] using hjoin

end Text

open Text (withPairsJoined)

theorem IsSegment.withPairsJoined {s : Text} (h : IsSegment s) :
    IsSegment (withPairsJoined s) := by
  obtain ⟨hne, hdot, hslash⟩ := h
  refine ⟨Text.withPairsJoined_ne_empty hne, ?_, ?_⟩
  · rw [Text.toList_withPairsJoined]
    exact Text.not_mem_joinPairs (by decide) hdot
  · rw [Text.toList_withPairsJoined]
    exact Text.not_mem_joinPairs (by decide) hslash

namespace Segments

def withPairsJoined (g : Segments) : Segments where
  toList := g.toList.map Text.withPairsJoined
  ne_nil := by simpa using g.ne_nil
  isSegment := by
    intro s hs
    obtain ⟨t, ht, rfl⟩ := List.mem_map.mp hs
    exact (g.isSegment t ht).withPairsJoined

theorem spelt_withPairsJoined (g : Segments) :
    g.withPairsJoined.spelt = g.spelt.map Text.joinPairs := by
  simp only [spelt, withPairsJoined, List.map_map]
  exact List.map_congr_left fun s _ => Text.toList_withPairsJoined s

theorem joined_withPairsJoined {sep : CodePoint}
    (h : sep.isSurrogate = false) (g : Segments) :
    g.withPairsJoined.joined sep = Text.withPairsJoined (g.joined sep) := by
  refine Text.toList_injective ?_
  rw [toList_joined, Text.toList_withPairsJoined, toList_joined, spelt_withPairsJoined,
    Text.joinPairs_joinWith h]

theorem last_withPairsJoined (g : Segments) :
    g.withPairsJoined.last = Text.withPairsJoined g.last :=
  List.getLast_map _

theorem withPairsJoined_eq_self_iff {g : Segments} :
    g.withPairsJoined = g ↔ ∀ s ∈ g.toList, Text.PairFree s.toList := by
  have hlists : g.withPairsJoined = g ↔ g.toList.map Text.withPairsJoined = g.toList.map id := by
    rw [List.map_id]
    exact ⟨fun h => congrArg toList h, fun h => toList_injective h⟩
  rw [hlists, List.map_inj_left]
  exact forall₂_congr fun s _ => Text.withPairsJoined_eq_self_iff

end Segments

namespace Identifier

def withPairsJoined (x : Identifier) : Identifier :=
  ⟨⟨x.package.segments.withPairsJoined⟩, x.name.withPairsJoined⟩

/-- No segment holds a high surrogate directly in front of a low one. -/
def PairFree (x : Identifier) : Prop :=
  ∀ s ∈ x.package.segments.toList ++ x.name.toList, Text.PairFree s.toList

instance (x : Identifier) : Decidable x.PairFree :=
  inferInstanceAs (Decidable (∀ s ∈ _, _))

theorem withPairsJoined_eq_self_iff {x : Identifier} : x.withPairsJoined = x ↔ x.PairFree := by
  obtain ⟨⟨g⟩, g'⟩ := x
  simp only [withPairsJoined, PairFree, mk.injEq, Package.mk.injEq,
    Segments.withPairsJoined_eq_self_iff, List.forall_mem_append]

theorem isSurrogate_separator (style : Style) : style.separator.isSurrogate = false := by
  cases style <;> decide

theorem render_withPairsJoined (x : Identifier) (style : Style) :
    x.withPairsJoined.render style = Text.withPairsJoined (x.render style) := by
  have hsep := isSurrogate_separator style
  have hdot : dot.isSurrogate = false := by
    decide
  rw [render, render, Text.withPairsJoined_append _ _ hsep, Package.render, Package.render,
    dottedName, dottedName, ← Segments.joined_withPairsJoined hsep,
    ← Segments.joined_withPairsJoined hdot]
  rfl

theorem shortName_withPairsJoined (x : Identifier) :
    x.withPairsJoined.shortName = Text.withPairsJoined x.shortName :=
  x.name.last_withPairsJoined

end Identifier

end NameCatalog
