import NameCatalog.Proofs.Name.Rendering

/-!
# Dotted names and segments

Dotted names and segments stand for one another: a text gives the segments that it joins and no
others, so packages and identifiers are the dotted names that they are read from. Joining alone
forgets where a segment with a dot in it ended; what is lost there is told by the segments, and with
them the two ways of making packages and identifiers agree.
-/

namespace NameCatalog

theorem Style.separator_mem_separators (style : Style) : style.separator ∈ separators := by
  cases style <;> decide

namespace Segments

theorem ofDotted_text_eq_ok_iff {part : Part} {s : Text} {g : Segments} :
    ofDotted part (.text s) = .ok g ↔ g.joined dot = s := by
  constructor
  · intro h
    obtain ⟨t, ht, -, hlist⟩ := ofDotted_eq_ok_iff.mp h
    obtain rfl := Value.text.inj ht
    rw [joined, hlist]
    exact join_components s
  · rintro rfl
    exact ofDotted_joined part g

/-- A sequence gives the segments that it consists of. -/
theorem ofValue_eq_ok_iff {part : Part} {v : Value} {parts : List Text} {g : Segments}
    (h : v.elements? = some (parts.map .text)) : ofValue part v = .ok g ↔ g.toList = parts := by
  rw [ofValue_of_elements h, mapError_eq_ok_iff, ofValues_eq_ok_iff, toValues]
  constructor
  · intro hmap
    rw [← texts_map g.toList, ← hmap, texts_map]
  · rintro rfl
    rfl

/-- Segments that a sequence gives are read from the text that joins it as well. -/
theorem ofValue_eq_ok_iff_ofDotted {part : Part} {v : Value} {parts : List Text} {g : Segments}
    (h : v.elements? = some (parts.map .text)) :
    ofValue part v = .ok g ↔
      ofDotted part (.text (Text.join "." parts)) = .ok g ∧ g.toList = parts := by
  rw [ofValue_eq_ok_iff h, ofDotted_text_eq_ok_iff, iff_and_self]
  rintro rfl
  rfl

end Segments

namespace Package

theorem ofDotted_eq_ok_iff {v : Value} {p : Package} :
    ofDotted v = .ok p ↔ Segments.ofDotted .package v = .ok p.segments := by
  rw [ofDotted, fmap_eq_ok_iff]
  constructor
  · rintro ⟨g, hg, rfl⟩
    exact hg
  · intro h
    exact ⟨_, h, rfl⟩

theorem ofDotted_text_eq_ok_iff {s : Text} {p : Package} :
    ofDotted (.text s) = .ok p ↔ p.javaName = s :=
  ofDotted_eq_ok_iff.trans Segments.ofDotted_text_eq_ok_iff

theorem ofSegments_eq_ok_iff {v : Value} {p : Package} :
    ofSegments v = .ok p ↔ Segments.ofValue .package v = .ok p.segments := by
  rw [ofSegments, fmap_eq_ok_iff]
  constructor
  · rintro ⟨g, hg, rfl⟩
    exact hg
  · intro h
    exact ⟨_, h, rfl⟩

theorem render_inj {p q : Package} {style : Style} : p.render style = q.render style ↔ p = q := by
  constructor
  · intro h
    have hsegments := Segments.joined_injective style.separator_mem_separators h
    cases p
    cases q
    exact congrArg mk hsegments
  · rintro rfl
    rfl

end Package

namespace Identifier

variable {p : Package} {v : Value} {x : Identifier}

theorem ofDotted_eq_ok_iff :
    ofDotted p v = .ok x ↔ x.package = p ∧ Segments.ofDotted .name v = .ok x.name := by
  rw [ofDotted, fmap_eq_ok_iff]
  constructor
  · rintro ⟨g, hg, rfl⟩
    exact ⟨rfl, hg⟩
  · rintro ⟨rfl, hg⟩
    exact ⟨_, hg, rfl⟩

theorem ofDotted_text_eq_ok_iff {s : Text} :
    ofDotted p (.text s) = .ok x ↔ x.package = p ∧ x.dottedName = s := by
  rw [ofDotted_eq_ok_iff, Segments.ofDotted_text_eq_ok_iff, dottedName]

theorem ofSegments_eq_ok_iff :
    ofSegments p v = .ok x ↔ x.package = p ∧ Segments.ofValue .name v = .ok x.name := by
  rw [ofSegments, fmap_eq_ok_iff]
  constructor
  · rintro ⟨g, hg, rfl⟩
    exact ⟨rfl, hg⟩
  · rintro ⟨rfl, hg⟩
    exact ⟨_, hg, rfl⟩

end Identifier

/-- A package is read from the text that it renders to and from no other, and an identifier from the
package that it is in and the text that joins its name; so packages with the same rendering in any
style are the same. A sequence of texts makes a package or a name exactly when the text that joins
it with dots is read as those very texts. -/
theorem dotted_texts_correspond :
    (∀ (s : Text) (p : Package), Package.ofDotted (.text s) = .ok p ↔ p.render .java = s) ∧
      (∀ (p q : Package) (style : Style), p.render style = q.render style ↔ p = q) ∧
      (∀ (p : Package) (s : Text) (x : Identifier), Identifier.ofDotted p (.text s) = .ok x ↔
        x.package = p ∧ Text.join "." x.name.toList = s) ∧
      ∀ (v : Value) (parts : List Text), v.elements? = some (parts.map .text) →
        (∀ p, Package.ofSegments v = .ok p ↔
          Package.ofDotted (.text (Text.join "." parts)) = .ok p ∧ p.segments.toList = parts) ∧
        ∀ p x, Identifier.ofSegments p v = .ok x ↔
          Identifier.ofDotted p (.text (Text.join "." parts)) = .ok x ∧ x.name.toList = parts := by
  refine ⟨?_, fun p q style => Package.render_inj, ?_, ?_⟩
  · intro s p
    rw [Package.ofDotted_eq_ok_iff, Segments.ofDotted_text_eq_ok_iff]
    rfl
  · intro p s x
    rw [Identifier.ofDotted_eq_ok_iff, Segments.ofDotted_text_eq_ok_iff]
    rfl
  · intro v parts hparts
    refine ⟨?_, ?_⟩
    · intro p
      rw [Package.ofSegments_eq_ok_iff, Segments.ofValue_eq_ok_iff_ofDotted hparts,
        Package.ofDotted_eq_ok_iff]
    · intro p x
      rw [Identifier.ofSegments_eq_ok_iff, Segments.ofValue_eq_ok_iff_ofDotted hparts,
        Identifier.ofDotted_eq_ok_iff, and_assoc]

/-- A list of two segments, and a tuple that is read as the same text but does not consist of
segments. -/
theorem dotted_texts_correspond_undivided :
    let apart : Value := .list [.text "a", .text "b"]
    let undivided : Value := .tuple [.text "a.b"]
    ∃ p : Package, p.render .java = "a.b" ∧ Package.ofDotted (.text "a.b") = .ok p ∧
      Package.ofSegments apart = .ok p ∧ ∀ q, Package.ofSegments undivided ≠ .ok q := by
  obtain ⟨hread, -, -, hmade⟩ := dotted_texts_correspond
  intro apart undivided
  let p : Package := ⟨⟨["a", "b"], by decide, by decide⟩⟩
  have hp : Package.ofDotted (.text "a.b") = .ok p := (hread _ p).mpr (by decide)
  have hjoin : Text.join "." ["a", "b"] = "a.b" ∧ Text.join "." ["a.b"] = "a.b" := by
    decide
  refine ⟨p, (hread _ p).mp hp, hp, ?_, ?_⟩
  · refine ((hmade apart ["a", "b"] rfl).1 p).mpr ⟨?_, rfl⟩
    rw [hjoin.1]
    exact hp
  · intro q hq
    obtain ⟨hdotted, hlist⟩ := ((hmade undivided ["a.b"] rfl).1 q).mp hq
    rw [hjoin.2, hp] at hdotted
    obtain rfl := Except.ok.inj hdotted
    exact absurd hlist (by decide)

end NameCatalog
