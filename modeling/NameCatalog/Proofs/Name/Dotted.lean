import NameCatalog.Name.Identifier
import NameCatalog.Proofs.Text.Splitting

/-!
# Which values are dotted names

Segments are made of exactly the sequences of proper texts, and a dotted text gives segments exactly
when it is not empty, holds no slash and has no empty component. The segments are then its
components, in order.
-/

namespace NameCatalog

/-- A text whose components can be segments. -/
def IsDotted (s : Text) : Prop :=
  s ≠ "" ∧ slash ∉ s.toList ∧ [] ∉ Text.pieces dot s.toList

instance (s : Text) : Decidable (IsDotted s) :=
  inferInstanceAs (Decidable (_ ∧ _))

def components (s : Text) : List Text :=
  (Text.pieces dot s.toList).map Text.ofList

theorem components_ne_nil (s : Text) : components s ≠ [] := by
  simpa [components] using Text.pieces_ne_nil dot s.toList

theorem map_toList_components (s : Text) :
    (components s).map Text.toList = Text.pieces dot s.toList := by
  rw [components, List.map_map]
  exact (List.map_congr_left fun cs _ => Text.toList_ofList).trans (List.map_id _)

/-- Joining the components of a text gives the text again. -/
theorem join_components (s : Text) : Text.join "." (components s) = s := by
  refine Text.toList_injective ?_
  rw [Text.toList_join, map_toList_components]
  exact Text.joinWith_pieces dot s.toList

theorem components_join {parts : List Text} (hne : parts ≠ [])
    (hdot : ∀ part ∈ parts, dot ∉ part.toList) : components (Text.join "." parts) = parts := by
  have hpieces : Text.pieces dot (Text.join "." parts).toList = parts.map Text.toList := by
    rw [Text.toList_join]
    refine Text.pieces_joinWith (by simpa using hne) ?_
    intro piece hpiece
    obtain ⟨part, hpart, rfl⟩ := List.mem_map.mp hpiece
    exact hdot part hpart
  rw [components, hpieces, List.map_map]
  exact (List.map_congr_left fun part _ => Text.ofList_toList).trans (List.map_id _)

theorem mem_components {s c : Text} (hempty : [] ∉ Text.pieces dot s.toList)
    (hc : c ∈ components s) : c ≠ "" ∧ dot ∉ c.toList ∧ ∀ x ∈ c.toList, x ∈ s.toList := by
  obtain ⟨piece, hpiece, rfl⟩ := List.mem_map.mp hc
  obtain ⟨hdot, hall⟩ := Text.not_mem_of_mem_pieces hpiece
  rw [Text.toList_ofList]
  refine ⟨?_, hdot, hall⟩
  intro hnil
  have hpnil : piece = [] := by simpa using congrArg Text.toList hnil
  exact hempty (hpnil ▸ hpiece)

theorem IsDotted.isSegment {s : Text} (h : IsDotted s) : ∀ c ∈ components s, IsSegment c := by
  obtain ⟨-, hslash, hempty⟩ := h
  intro c hc
  obtain ⟨hne, hdot, hall⟩ := mem_components hempty hc
  exact ⟨hne, hdot, fun hmem => hslash (hall slash hmem)⟩

/-- Segments that make up the whole of a text make it a dotted one. -/
theorem isDotted_of_isSegment {s : Text} (hne : s ≠ "")
    (h : ∀ c ∈ components s, IsSegment c) : IsDotted s := by
  refine ⟨hne, ?_, ?_⟩
  · intro hslash
    obtain ⟨piece, hpiece, hmem⟩ :=
      Text.exists_mem_pieces hslash (show slash ≠ dot by decide)
    have hsegment := h (Text.ofList piece) (List.mem_map_of_mem hpiece)
    exact hsegment.2.2 (by simpa using hmem)
  · intro hnil
    exact (h (Text.ofList []) (List.mem_map_of_mem hnil)).1 rfl

namespace Segments

theorem toList_injective {g g' : Segments} (h : g.toList = g'.toList) : g = g' := by
  cases g
  cases g'
  cases h
  rfl

def ofComponents {s : Text} (h : IsDotted s) : Segments :=
  ⟨components s, components_ne_nil s, h.isSegment⟩

/-- Nothing is changed on the way from a sequence of values to segments. -/
theorem ofValues_eq_ok_iff {part : Part} {items : List Value} {g : Segments} :
    ofValues part items = .ok g ↔ items = g.toValues := by
  constructor
  · intro h
    unfold ofValues at h
    split at h
    · cases h
    · split at h
      · cases h
      · next hnone =>
          cases h
          exact (findSome?_offence_eq_none hnone).1
  · rintro rfl
    exact ofValues_toValues part g

theorem ofValue_of_elements {part : Part} {v : Value} {items : List Value}
    (h : v.elements? = some items) :
    ofValue part v = (ofValues part items).mapError .malformed := by
  cases v with
  | text s => cases h
  | _ => simp only [ofValue, h]

/-- Segments that have passed the check pass it again and stay what they are. -/
theorem ofValue_toValues (part : Part) (g : Segments) :
    ofValue part (.tuple g.toValues) = .ok g := by
  rw [ofValue_of_elements rfl, ofValues_toValues]
  rfl

theorem ofDotted_text {part : Part} {s : Text} (hne : s ≠ "")
    (hempty : [] ∉ Text.pieces dot s.toList) :
    ofDotted part (.text s) = ofValues part ((components s).map .text) := by
  simp only [ofDotted, if_neg hne, if_neg hempty, components, List.map_map]
  rfl

theorem ofDotted_eq_ok_iff {part : Part} {v : Value} {g : Segments} :
    ofDotted part v = .ok g ↔ ∃ s, v = .text s ∧ IsDotted s ∧ g.toList = components s := by
  constructor
  · intro h
    cases v with
    | text s =>
        by_cases hne : s = ""
        · simp [ofDotted, hne] at h
        by_cases hempty : [] ∈ Text.pieces dot s.toList
        · simp [ofDotted, hne, hempty] at h
        rw [ofDotted_text hne hempty, ofValues_eq_ok_iff] at h
        have hlist : g.toList = components s := by
          rw [← texts_map g.toList, ← texts_map (components s)]
          exact congrArg texts h.symm
        exact ⟨s, rfl, isDotted_of_isSegment hne (hlist ▸ g.isSegment), hlist⟩
    | _ => simp [ofDotted] at h
  · rintro ⟨s, rfl, hs, hlist⟩
    rw [ofDotted_text hs.1 hs.2.2, ofValues_eq_ok_iff, toValues, hlist]

theorem ofDotted_isDotted (part : Part) {s : Text} (h : IsDotted s) :
    ofDotted part (.text s) = .ok (ofComponents h) :=
  ofDotted_eq_ok_iff.mpr ⟨s, rfl, h, rfl⟩

end Segments

def Value.IsDotted (v : Value) : Prop := ∃ s, v = .text s ∧ NameCatalog.IsDotted s

theorem Value.isDotted_iff {v : Value} (part : Part) :
    v.IsDotted ↔ ∃ g, Segments.ofDotted part v = .ok g := by
  constructor
  · rintro ⟨s, rfl, hs⟩
    exact ⟨_, Segments.ofDotted_isDotted part hs⟩
  · rintro ⟨g, hg⟩
    obtain ⟨s, hv, hs, -⟩ := Segments.ofDotted_eq_ok_iff.mp hg
    exact ⟨s, hv, hs⟩

theorem Package.isDotted_iff {v : Value} : v.IsDotted ↔ ∃ p, Package.ofDotted v = .ok p := by
  rw [Value.isDotted_iff .package, Package.ofDotted]
  cases Segments.ofDotted .package v with
  | error m => simp
  | ok g => simp

theorem Identifier.isDotted_iff (p : Package) {v : Value} :
    v.IsDotted ↔ ∃ x, Identifier.ofDotted p v = .ok x := by
  rw [Value.isDotted_iff .name, Identifier.ofDotted]
  cases Segments.ofDotted .name v with
  | error m => simp
  | ok g => simp

end NameCatalog
