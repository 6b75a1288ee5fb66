import NameCatalog.Proofs.Name.Correspondence
import NameCatalog.Proofs.Name.Texts

/-!
# Segments behind segments

A dot between two texts is a boundary between segments and nothing else: the texts are read together
exactly when each of them is read alone, and their segments stand one behind the other. The Java
name of an identifier so joins the segments of its package and of its name in one row.
-/

namespace NameCatalog

theorem components_append (s t : Text) :
    components (s ++ "." ++ t) = components s ++ components t := by
  have hlist : (s ++ "." ++ t).toList = s.toList ++ dot :: t.toList := by
    simp [dot]
  rw [components, hlist, Text.pieces_append_cons, List.map_append, components, components]

/-- The empty text is no exception, since its only component is empty. -/
theorem isDotted_iff_isSegment {s : Text} : IsDotted s ↔ ∀ c ∈ components s, IsSegment c := by
  constructor
  · exact IsDotted.isSegment
  · intro h
    apply isDotted_of_isSegment _ h
    rintro rfl
    exact (h "" List.mem_cons_self).1 rfl

theorem isDotted_append_iff {s t : Text} :
    IsDotted (s ++ "." ++ t) ↔ IsDotted s ∧ IsDotted t := by
  rw [isDotted_iff_isSegment, isDotted_iff_isSegment, isDotted_iff_isSegment, components_append,
    List.forall_mem_append]

namespace Segments

instance : Append Segments where
  append g g' :=
    ⟨g.toList ++ g'.toList, List.append_ne_nil_of_left_ne_nil g.ne_nil g'.toList,
      List.forall_mem_append.mpr ⟨g.isSegment, g'.isSegment⟩⟩

variable (g g' : Segments)

@[simp] theorem toList_append : (g ++ g').toList = g.toList ++ g'.toList := rfl

@[simp] theorem spelt_append : (g ++ g').spelt = g.spelt ++ g'.spelt := List.map_append

theorem joined_append (sep : CodePoint) :
    (g ++ g').joined sep = g.joined sep ++ Text.singleton sep ++ g'.joined sep := by
  apply Text.toList_injective
  rw [toList_joined, spelt_append, Text.joinWith_append g.spelt_ne_nil g'.spelt_ne_nil]
  simp

theorem last_append : (g ++ g').last = g'.last :=
  List.getLast_append_of_right_ne_nil _ _ g'.ne_nil

theorem length_eq_count_joined : g.toList.length = (g.joined dot).toList.count dot + 1 := by
  rw [← Text.length_pieces, pieces_joined_dot, spelt, List.length_map]

/-- Two texts with a dot between them are read as the one and then the other. -/
theorem ofDotted_append_eq_ok_iff {part : Part} {s t : Text} {g : Segments} :
    ofDotted part (.text (s ++ "." ++ t)) = .ok g ↔
      ∃ a b, ofDotted part (.text s) = .ok a ∧ ofDotted part (.text t) = .ok b ∧ g = a ++ b := by
  simp only [ofDotted_text_eq_ok_iff]
  constructor
  · intro h
    obtain ⟨hs, ht⟩ := isDotted_append_iff.mp (h ▸ g.isDotted_joined)
    refine ⟨ofComponents hs, ofComponents ht, joined_ofComponents hs, joined_ofComponents ht, ?_⟩
    apply joined_injective (show dot ∈ separators by decide)
    rw [joined_append, joined_ofComponents, joined_ofComponents]
    exact h
  · rintro ⟨a, b, rfl, rfl, rfl⟩
    exact joined_append a b dot

end Segments

theorem Package.ofDotted_append_eq_ok_iff {s t : Text} {r : Package} :
    ofDotted (.text (s ++ "." ++ t)) = .ok r ↔
      ∃ p q, ofDotted (.text s) = .ok p ∧ ofDotted (.text t) = .ok q ∧
        r = ⟨p.segments ++ q.segments⟩ := by
  simp only [ofDotted_eq_ok_iff, Segments.ofDotted_append_eq_ok_iff]
  constructor
  · rintro ⟨a, b, ha, hb, h⟩
    exact ⟨⟨a⟩, ⟨b⟩, ha, hb, congrArg Package.mk h⟩
  · rintro ⟨p, q, hp, hq, rfl⟩
    exact ⟨p.segments, q.segments, hp, hq, rfl⟩

namespace Identifier

theorem qualifiedName_eq_joined (x : Identifier) :
    x.qualifiedName = (x.package.segments ++ x.name).joined dot :=
  (Segments.joined_append x.package.segments x.name dot).symm

theorem qualifiedName_eq_iff {x y : Identifier} :
    x.qualifiedName = y.qualifiedName ↔
      x.package.segments ++ x.name = y.package.segments ++ y.name := by
  rw [qualifiedName_eq_joined, qualifiedName_eq_joined]
  constructor
  · exact Segments.joined_injective (by decide)
  · exact congrArg (Segments.joined dot)

theorem ofDotted_qualifiedName (x : Identifier) :
    Package.ofDotted (.text x.qualifiedName) = .ok ⟨x.package.segments ++ x.name⟩ :=
  Package.ofDotted_text_eq_ok_iff.mpr x.qualifiedName_eq_joined.symm

theorem shortName_eq_last (x : Identifier) :
    x.shortName = (x.package.segments ++ x.name).last :=
  (Segments.last_append x.package.segments x.name).symm

end Identifier

end NameCatalog
