import NameCatalog.Proofs.Name.Dotted
import NameCatalog.Proofs.Outcome

/-!
# What renderings tell

Segments can be read off their joined text, since no segment holds a separator. An identifier in a
style is joined out of its package segments and its dotted name; in the internal style the dotted
name holds no separator either, so the last slash is where the package ends. A text that joins
segments with dots is a dotted one, and gives the same segments when it is read.
-/

namespace NameCatalog

namespace Segments

def spelt (g : Segments) : List (List CodePoint) := g.toList.map Text.toList

theorem spelt_ne_nil (g : Segments) : g.spelt ≠ [] := by
  simpa [spelt] using g.ne_nil

theorem spelt_injective {g g' : Segments} (h : g.spelt = g'.spelt) : g = g' :=
  toList_injective (List.map_injective_iff.mpr (fun _ _ => Text.toList_inj.mp) h)

theorem not_mem_spelt {g : Segments} {sep : CodePoint} (hsep : sep ∈ separators) :
    ∀ piece ∈ g.spelt, sep ∉ piece := by
  intro piece hpiece
  obtain ⟨s, hs, rfl⟩ := List.mem_map.mp hpiece
  obtain ⟨-, hdot, hslash⟩ := g.isSegment s hs
  rcases List.mem_cons.mp hsep with rfl | hsep
  · exact hdot
  · rw [List.mem_singleton.mp hsep]
    exact hslash

@[simp] theorem toList_joined (sep : CodePoint) (g : Segments) :
    (g.joined sep).toList = Text.joinWith [sep] g.spelt := by
  rw [joined, Text.toList_join, Text.toList_singleton, spelt]

theorem joined_injective {sep : CodePoint} (hsep : sep ∈ separators) {g g' : Segments}
    (h : g.joined sep = g'.joined sep) : g = g' := by
  have hjoin := congrArg Text.toList h
  rw [toList_joined, toList_joined] at hjoin
  exact spelt_injective (Text.joinWith_injective g.spelt_ne_nil g'.spelt_ne_nil
    (not_mem_spelt hsep) (not_mem_spelt hsep) hjoin)

theorem slash_not_mem_joined_dot (g : Segments) : slash ∉ (g.joined dot).toList := by
  rw [toList_joined]
  intro hslash
  rcases Text.mem_joinWith hslash with hdot | ⟨piece, hpiece, hmem⟩
  · exact absurd (List.mem_singleton.mp hdot) (by decide)
  · exact not_mem_spelt (by decide) piece hpiece hmem

/-! ## Reading what was rendered -/

theorem pieces_joined_dot (g : Segments) : Text.pieces dot (g.joined dot).toList = g.spelt := by
  rw [toList_joined]
  exact Text.pieces_joinWith g.spelt_ne_nil (not_mem_spelt (by decide))

theorem nil_not_mem_spelt (g : Segments) : [] ∉ g.spelt := by
  intro hnil
  obtain ⟨s, hs, hempty⟩ := List.mem_map.mp hnil
  exact (g.isSegment s hs).1 (Text.toList_eq_nil_iff.mp hempty)

theorem isDotted_joined (g : Segments) : IsDotted (g.joined dot) := by
  refine ⟨?_, g.slash_not_mem_joined_dot, ?_⟩
  · intro hempty
    -- The only piece of the empty text is empty, and no segment is.
    have hpieces := g.pieces_joined_dot
    rw [hempty] at hpieces
    apply g.nil_not_mem_spelt
    rw [← hpieces]
    exact List.mem_singleton_self []
  · rw [pieces_joined_dot]
    exact g.nil_not_mem_spelt

theorem components_joined (g : Segments) : components (g.joined dot) = g.toList :=
  components_join g.ne_nil fun s hs => (g.isSegment s hs).2.1

theorem joined_ofComponents {s : Text} (h : IsDotted s) : (ofComponents h).joined dot = s :=
  join_components s

/-- Segments are read back from the text that joins them with dots. -/
theorem ofDotted_joined (part : Part) (g : Segments) :
    ofDotted part (.text (g.joined dot)) = .ok g :=
  ofDotted_eq_ok_iff.mpr ⟨_, rfl, g.isDotted_joined, g.components_joined.symm⟩

end Segments

theorem Package.ofDotted_javaName (p : Package) : ofDotted (.text p.javaName) = .ok p := by
  have hread := Segments.ofDotted_joined .package p.segments
  exact fmap_eq_ok_iff.mpr ⟨_, hread, rfl⟩

theorem Identifier.ofDotted_joined (p : Package) (g : Segments) :
    ofDotted p (.text (g.joined dot)) = .ok ⟨p, g⟩ := by
  have hread := Segments.ofDotted_joined .name g
  exact fmap_eq_ok_iff.mpr ⟨_, hread, rfl⟩

namespace Identifier

/-- What stands between the separators of an identifier's package: the package segments, and the
dotted name behind the last separator. -/
def spelt (x : Identifier) : List (List CodePoint) :=
  x.package.segments.spelt ++ [x.dottedName.toList]

theorem toList_render (x : Identifier) (style : Style) :
    (x.render style).toList = Text.joinWith [style.separator] x.spelt := by
  rw [spelt, Text.joinWith_concat x.package.segments.spelt_ne_nil, ← Segments.toList_joined]
  simp [render, Package.render]

theorem render_ne_empty (x : Identifier) (style : Style) : x.render style ≠ "" := by
  intro h
  have hlength := congrArg Text.length h
  simp [render] at hlength

theorem slash_not_mem_spelt (x : Identifier) : ∀ piece ∈ x.spelt, slash ∉ piece := by
  intro piece hpiece
  rcases List.mem_append.mp hpiece with hpackage | hname
  · exact Segments.not_mem_spelt (by decide) piece hpackage
  · rw [List.mem_singleton.mp hname]
    exact x.name.slash_not_mem_joined_dot

theorem eq_of_segments {x y : Identifier} (hpackage : x.package.segments = y.package.segments)
    (hname : x.name = y.name) : x = y := by
  cases x with
  | mk p g =>
      cases y with
      | mk q g' =>
          cases p
          cases q
          cases hpackage
          cases hname
          rfl

theorem spelt_injective {x y : Identifier} (h : x.spelt = y.spelt) : x = y := by
  obtain ⟨hpackage, hname⟩ := List.append_inj' h rfl
  have hdotted : x.dottedName = y.dottedName :=
    Text.toList_inj.mp (List.singleton_inj.mp hname)
  exact eq_of_segments (Segments.spelt_injective hpackage)
    (Segments.joined_injective (by decide) hdotted)

/-- The last slash of an internal name is where the package ends, so the name tells everything. -/
theorem internalClassName_injective {x y : Identifier}
    (h : x.internalClassName = y.internalClassName) : x = y := by
  have hjoin := congrArg Text.toList h
  rw [internalClassName, internalClassName, toList_render, toList_render] at hjoin
  have hx : x.spelt ≠ [] := by simp [spelt]
  have hy : y.spelt ≠ [] := by simp [spelt]
  exact spelt_injective (Text.joinWith_injective hx hy x.slash_not_mem_spelt
    y.slash_not_mem_spelt hjoin)

end Identifier

end NameCatalog
