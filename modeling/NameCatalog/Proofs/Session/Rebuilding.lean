import NameCatalog.Proofs.Catalog.Merging
import NameCatalog.Proofs.Session.Contents

/-!
# Items made again

With nothing replaced an item comes back as it was, and nothing is noticed on the way: its segments
pass their own check, and its names hold no repeats.
-/

namespace NameCatalog

theorem Package.ofOperand_toValues (p : Package) :
    ofOperand (.value (.tuple p.segments.toValues)) = .ok p := by
  simp only [ofOperand, Segments.ofOperand, Segments.ofValue_toValues]
  rfl

theorem Identifier.ofOperand_toValues (x : Identifier) :
    ofOperand (.item (.package x.package)) (.value (.tuple x.name.toValues)) = .ok x := by
  simp only [ofOperand, ofSegmentsIn, Operand.asPackage, Operand.package?, ofSegments,
    Segments.ofValue_toValues]
  rfl

/-- The names of a catalog are taken over as they are. -/
theorem Catalog.ofNames_names {c : Catalog} {source : Text} (h : c.source = source) :
    ofNames source c.names = .silent c := by
  cases c with
  | mk names source' hnodup =>
      cases h
      exact ofNames_of_nodup source' hnodup

namespace Item

theorem replaceCatalog_nil {c : Catalog} {source : Value} (h : c.source = source.shown) :
    replaceCatalog c source [] = .silent (.ok (ofCatalog c source)) := by
  have hcatalog := catalogOf_identifiers source c.names
  rw [Catalog.ofNames_names h] at hcatalog
  exact hcatalog

theorem Labelled.replace_nil {i : Item} (h : i.Labelled) : i.replace [] = .silent (.ok i) := by
  cases i with
  | package p =>
      have hp : replacePackage p [] = .ok (.package p) := by
        simp only [replacePackage, fieldOr, List.lookup_nil, Option.getD_none,
          Package.ofOperand_toValues]
        rfl
      simp only [replace, List.findSome?_nil, hp]
  | identifier x =>
      have hx : replaceIdentifier x [] = .ok (.identifier x) := by
        simp only [replaceIdentifier, fieldOr, List.lookup_nil, Option.getD_none,
          Identifier.ofOperand_toValues]
        rfl
      simp only [replace, List.findSome?_nil, hx]
  | catalog c => exact replaceCatalog_nil rfl
  | mislabelled c source =>
      obtain ⟨htext, hsource⟩ := h
      have hmade : ofCatalog c source = mislabelled c source := by
        cases source with
        | text s => cases htext
        | _ => rfl
      have hback := replaceCatalog_nil hsource
      rw [hmade] at hback
      exact hback

theorem exists_render {i : Item} (h : i.catalog? = none) (style : Option Style) :
    ∃ s, i.render (style.map fun style => .text style.word) = .ok s := by
  have hstyle : ∃ style', styleOf (style.map fun style => .text style.word) = .ok style' := by
    cases style with
    | none => exact ⟨.java, rfl⟩
    | some style => exact ⟨style, by simp [styleOf, Style.ofValue?]⟩
  obtain ⟨style', hstyle⟩ := hstyle
  cases i with
  | package p => exact ⟨p.render style', by rw [render, hstyle]; rfl⟩
  | identifier x => exact ⟨x.render style', by rw [render, hstyle]; rfl⟩
  | catalog c => cases h
  | mislabelled c source => cases h

/-- An item that keeps the rules for its content, renders in all styles and by default unless it is
a catalog, and is made again from its own fields without notices. -/
structure Sound (i : Item) : Prop where
  wellFormed : i.content.WellFormed
  renders : i.catalog? = none →
    ∀ style : Option Style, ∃ s, i.render (style.map fun style => .text style.word) = .ok s
  rebuilt : i.replace [] = .silent (.ok i)

theorem Labelled.sound {i : Item} (h : i.Labelled) : i.Sound where
  wellFormed := i.content_wellFormed
  renders := exists_render
  rebuilt := h.replace_nil

end Item

end NameCatalog
