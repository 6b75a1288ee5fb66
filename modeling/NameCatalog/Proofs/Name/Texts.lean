import Mathlib.Data.List.DropRight
import NameCatalog.Proofs.Name.Pairs

/-!
# Renderings as texts

What an identifier renders to can be told from two texts, the Java name of its package and its
dotted name, without looking at segments; so can whether it holds pairs of surrogates.
-/

namespace NameCatalog

namespace Text

theorem map_joinWith (f : CodePoint → CodePoint) (sep : List CodePoint)
    (ps : List (List CodePoint)) :
    (joinWith sep ps).map f = joinWith (sep.map f) (ps.map (List.map f)) := by
  induction ps with
  | nil => rfl
  | cons piece rest ih =>
      cases rest with
      | nil => rfl
      | cons next rest =>
          rw [joinWith_cons (List.cons_ne_nil next rest), List.map_append, List.map_append, ih]
          exact (joinWith_cons (List.cons_ne_nil _ _)).symm

/-- A separator that is nowhere else may be exchanged in the joined text. -/
theorem map_joinWith_of_not_mem {old : CodePoint} (new : CodePoint) {ps : List (List CodePoint)}
    (h : ∀ piece ∈ ps, old ∉ piece) :
    (joinWith [old] ps).map (fun c => if c = old then new else c) = joinWith [new] ps := by
  have hkeep : ps.map (List.map fun c => if c = old then new else c) = ps := by
    refine (List.map_congr_left ?_).trans (List.map_id _)
    intro piece hpiece
    refine (List.map_congr_left ?_).trans (List.map_id _)
    intro c hc
    exact if_neg (ne_of_mem_of_not_mem hc (h piece hpiece))
  rw [map_joinWith, hkeep, List.map_singleton, if_pos rfl]

/-- Of joined pieces, the last stands behind the last separator unless it holds one itself. -/
theorem rtakeWhile_joinWith {sep : CodePoint} (front : List (List CodePoint))
    {last : List CodePoint}
    (h : sep ∉ last) : (joinWith [sep] (front ++ [last])).rtakeWhile (· ≠ sep) = last := by
  have hlast : ∀ c ∈ last.reverse, decide (c ≠ sep) = true := by
    intro c hc
    exact decide_eq_true (ne_of_mem_of_not_mem (List.mem_reverse.mp hc) h)
  by_cases hfront : front = []
  · rw [hfront, List.nil_append, joinWith, List.rtakeWhile_eq_self_iff]
    intro c hc
    exact hlast c (List.mem_reverse.mpr hc)
  · have hreverse : (joinWith [sep] (front ++ [last])).reverse =
        last.reverse ++ sep :: (joinWith [sep] front).reverse := by
      simp [joinWith_concat hfront]
    rw [List.rtakeWhile, hreverse, List.takeWhile_append_of_pos hlast,
      List.takeWhile_cons_of_neg (by simp), List.append_nil, List.reverse_reverse]

end Text

/-- A text with a slash in the place of every dot. -/
def slashed (s : Text) : Text := Text.ofList (s.toList.map fun c => if c = dot then slash else c)

/-- The internal name that goes with the Java name of a package and a dotted name. -/
def internalText (package name : Text) : Text := slashed package ++ "/" ++ name

/-- What stands behind the last dot of a text. -/
def innermost (name : Text) : Text := Text.ofList (name.toList.rtakeWhile (· ≠ dot))

namespace Segments

theorem joined_slash (g : Segments) : g.joined slash = slashed (g.joined dot) := by
  refine Text.toList_injective ?_
  rw [slashed, Text.toList_ofList, toList_joined, toList_joined,
    Text.map_joinWith_of_not_mem slash (not_mem_spelt (by decide))]

theorem last_eq_innermost (g : Segments) : g.last = innermost (g.joined dot) := by
  have hlast : g.spelt.getLast g.spelt_ne_nil = g.last.toList := List.getLast_map _
  have hcut : g.spelt.dropLast ++ [g.last.toList] = g.spelt := by
    rw [← hlast, List.dropLast_append_getLast]
  have hdot : dot ∉ g.last.toList := (g.isSegment _ (List.getLast_mem g.ne_nil)).2.1
  rw [innermost, toList_joined, ← hcut, Text.rtakeWhile_joinWith _ hdot, Text.ofList_toList]

end Segments

namespace Identifier

variable (x : Identifier)

theorem render_java : x.render .java = x.package.javaName ++ "." ++ x.dottedName := rfl

theorem render_internal : x.render .internal = internalText x.package.javaName x.dottedName :=
  congrArg (· ++ "/" ++ x.dottedName) x.package.segments.joined_slash

theorem shortName_eq : x.shortName = innermost x.dottedName := x.name.last_eq_innermost

theorem javaName_withPairsJoined :
    x.withPairsJoined.package.javaName = Text.withPairsJoined x.package.javaName :=
  x.package.segments.joined_withPairsJoined (by decide)

theorem dottedName_withPairsJoined :
    x.withPairsJoined.dottedName = Text.withPairsJoined x.dottedName :=
  x.name.joined_withPairsJoined (by decide)

theorem pairFree_iff :
    x.PairFree ↔ Text.PairFree x.package.javaName.toList ∧ Text.PairFree x.dottedName.toList := by
  rw [← withPairsJoined_eq_self_iff, ← Text.withPairsJoined_eq_self_iff,
    ← Text.withPairsJoined_eq_self_iff, ← javaName_withPairsJoined, ← dottedName_withPairsJoined]
  constructor
  · intro h
    rw [h]
    exact ⟨rfl, rfl⟩
  · rintro ⟨hpackage, hname⟩
    refine internalClassName_injective ?_
    rw [internalClassName, internalClassName, render_internal, render_internal, hpackage, hname]

end Identifier

end NameCatalog
