import NameCatalog.Proofs.Catalog.FirstOccurrences
import NameCatalog.Proofs.Name.Dotted
import NameCatalog.Proofs.Outcome
import NameCatalog.Session.Access
import NameCatalog.Session.Replace

/-!
# What items are made of

An item is made of texts, in lists that spell packages and names, and of a value in the place of a
source. It comes back unchanged and unnoticed when it is made again from its own fields.
-/

namespace NameCatalog

/-- Texts that spell a package or a name. -/
def IsSpelling (ss : List Text) : Prop := ss ≠ [] ∧ ∀ s ∈ ss, IsSegment s

theorem Segments.isSpelling (g : Segments) : IsSpelling g.toList := ⟨g.ne_nil, g.isSegment⟩

theorem IsSpelling.exists_segments {ss : List Text} (h : IsSpelling ss) :
    ∃ g : Segments, g.toList = ss :=
  ⟨⟨ss, h.1, h.2⟩, rfl⟩

def Identifier.spelling (x : Identifier) : List Text × List Text :=
  (x.package.segments.toList, x.name.toList)

theorem Identifier.spelling_injective : Function.Injective Identifier.spelling := by
  rintro ⟨⟨g⟩, h⟩ ⟨⟨g'⟩, h'⟩ heq
  obtain ⟨hpackage, hname⟩ := Prod.mk.inj heq
  cases Segments.toList_injective hpackage
  cases Segments.toList_injective hname
  rfl

theorem Identifier.exists_spelling {ss : List Text × List Text} (hpackage : IsSpelling ss.1)
    (hname : IsSpelling ss.2) : ∃ x : Identifier, x.spelling = ss := by
  obtain ⟨g, hg⟩ := hpackage.exists_segments
  obtain ⟨h, hh⟩ := hname.exists_segments
  exact ⟨⟨⟨g⟩, h⟩, Prod.ext hg hh⟩

theorem Identifier.exists_spellings {names : List (List Text × List Text)}
    (h : ∀ n ∈ names, IsSpelling n.1 ∧ IsSpelling n.2) :
    ∃ xs : List Identifier, xs.map Identifier.spelling = names := by
  induction names with
  | nil => exact ⟨[], rfl⟩
  | cons n names ih =>
      obtain ⟨⟨hpackage, hname⟩, hnames⟩ := List.forall_mem_cons.mp h
      obtain ⟨x, hx⟩ := Identifier.exists_spelling hpackage hname
      obtain ⟨xs, hxs⟩ := ih hnames
      exact ⟨x :: xs, by rw [List.map_cons, hx, hxs]⟩

inductive Content where
  | package (segments : List Text)
  | identifier (package name : List Text)
  | catalog (names : List (List Text × List Text)) (source : Value)

def Content.WellFormed : Content → Prop
  | package segments => IsSpelling segments
  | identifier path name => IsSpelling path ∧ IsSpelling name
  | catalog names _ => names.Nodup ∧ ∀ n ∈ names, IsSpelling n.1 ∧ IsSpelling n.2

namespace Item

def content : Item → Content
  | package p => .package p.segments.toList
  | identifier x => .identifier x.package.segments.toList x.name.toList
  | catalog c => .catalog (c.names.map Identifier.spelling) (.text c.source)
  | mislabelled c source => .catalog (c.names.map Identifier.spelling) source

/-- An item with all the identifiers and packages in it. -/
def parts : Item → List Item
  | package p => [package p]
  | identifier x => [identifier x, package x.package]
  | catalog c => catalog c :: c.names.flatMap fun x => [identifier x, package x.package]
  | mislabelled c source =>
    mislabelled c source :: c.names.flatMap fun x => [identifier x, package x.package]

/-- Of a source that is no text, the catalog knows how it is shown. -/
def Labelled : Item → Prop
  | mislabelled c source => source.text? = none ∧ c.source = source.shown
  | _ => True

theorem content_wellFormed (i : Item) : i.content.WellFormed := by
  have hcatalog : ∀ c : Catalog, ∀ source,
      (Content.catalog (c.names.map Identifier.spelling) source).WellFormed := by
    intro c source
    refine ⟨c.nodup.map Identifier.spelling_injective, ?_⟩
    intro n hn
    obtain ⟨x, -, rfl⟩ := List.mem_map.mp hn
    exact ⟨x.package.segments.isSpelling, x.name.isSpelling⟩
  cases i with
  | package p => exact p.segments.isSpelling
  | identifier x => exact ⟨x.package.segments.isSpelling, x.name.isSpelling⟩
  | catalog c => exact hcatalog c (.text c.source)
  | mislabelled c source => exact hcatalog c source

theorem mem_parts_self (i : Item) : i ∈ i.parts := by
  cases i with
  | package p => exact List.mem_cons_self
  | identifier x => exact List.mem_cons_self
  | catalog c => exact List.mem_cons_self
  | mislabelled c source => exact List.mem_cons_self

theorem Labelled.of_mem_parts {i j : Item} (h : i.Labelled) (hj : j ∈ i.parts) : j.Labelled := by
  have hnames : ∀ xs : List Identifier,
      j ∈ xs.flatMap (fun x => [identifier x, package x.package]) → j.Labelled := by
    intro xs hmem
    obtain ⟨x, -, hx⟩ := List.mem_flatMap.mp hmem
    rcases List.mem_pair.mp hx with rfl | rfl
    · trivial
    · trivial
  cases i with
  | package p =>
      rw [List.mem_singleton.mp hj]
      trivial
  | identifier x => exact hnames [x] (by simpa [parts] using hj)
  | catalog c =>
      rcases List.mem_cons.mp hj with rfl | hj
      · trivial
      · exact hnames c.names hj
  | mislabelled c source =>
      rcases List.mem_cons.mp hj with rfl | hj
      · exact h
      · exact hnames c.names hj

/-! ## Catalogs of identifiers -/

theorem labelled_ofCatalog {c : Catalog} {source : Value} (h : c.source = source.shown) :
    (ofCatalog c source).Labelled := by
  cases source with
  | text s => trivial
  | _ => exact ⟨rfl, h⟩

theorem content_ofCatalog {c : Catalog} {source : Value} (h : c.source = source.shown) :
    (ofCatalog c source).content = .catalog (c.names.map Identifier.spelling) source := by
  cases source with
  | text s =>
      have hs : c.source = s := h
      simp [ofCatalog, content, hs]
  | _ => rfl

theorem gather_identifiers (seen : List Operand) (xs : List Identifier) :
    gather seen (xs.map fun x => .item (.identifier x)) = (xs, none) := by
  induction xs generalizing seen with
  | nil => rfl
  | cons x xs ih =>
      rw [List.map_cons, gather, ih]
      rfl

theorem strangerFault_identifiers (xs : List Identifier) :
    strangerFault (xs.map fun x => .item (.identifier x)) = none := by
  rw [strangerFault, Option.map_eq_none_iff, List.find?_eq_none]
  intro o ho
  obtain ⟨x, -, rfl⟩ := List.mem_map.mp ho
  simp [Operand.identifier?]

theorem catalogOf_identifiers (source : Value) (xs : List Identifier) :
    catalogOf source (xs.map fun x => .item (.identifier x)) =
      (Catalog.ofNames source.shown xs).map fun c => .ok (ofCatalog c source) := by
  rw [catalogOf, gather_identifiers, strangerFault_identifiers]
  rfl

theorem labelled_of_catalogOf {source : Value} {os : List Operand} {i : Item}
    (h : (catalogOf source os).result = .ok i) : i.Labelled := by
  simp only [catalogOf] at h
  split at h
  · cases h
  · cases h
    exact labelled_ofCatalog rfl

theorem labelled_of_merge {items : List Item} {i : Item} (h : (merge items).result = .ok i) :
    i.Labelled := by
  simp only [merge] at h
  split at h
  · cases h
  · split at h
    · cases h
    · cases h
      trivial

/-! ## Items out of other items -/

theorem labelled_of_itemAt {i j : Item} {index : Value} (h : i.itemAt index = .ok j) :
    j.Labelled := by
  simp only [itemAt] at h
  split at h
  · next c source hcatalog =>
      obtain ⟨n, -, hfound⟩ := bind_eq_ok_iff.mp h
      split at hfound
      · cases hfound
        trivial
      · cases hfound
  · cases h

theorem labelled_of_packageOf {i j : Item} (h : i.packageOf = .ok j) : j.Labelled := by
  cases i with
  | identifier x =>
      cases h
      trivial
  | _ => cases h

theorem labelled_of_replaceCatalog {c : Catalog} {source : Value}
    {changes : List (Text × Operand)} {i : Item}
    (h : (replaceCatalog c source changes).result = .ok i) : i.Labelled := by
  simp only [replaceCatalog] at h
  split at h
  · cases h
  · exact labelled_of_catalogOf h
  · simp only [Logged.andThen] at h
    split at h
    · cases h
    · cases h

theorem labelled_of_replace {i j : Item} {changes : List (Text × Operand)}
    (h : (i.replace changes).result = .ok j) : j.Labelled := by
  simp only [replace] at h
  split at h
  · cases h
  · cases i with
    | package p =>
        obtain ⟨q, -, rfl⟩ := map_eq_ok_iff.mp h
        trivial
    | identifier x =>
        obtain ⟨y, -, rfl⟩ := map_eq_ok_iff.mp h
        trivial
    | catalog c => exact labelled_of_replaceCatalog h
    | mislabelled c source => exact labelled_of_replaceCatalog h

end Item

end NameCatalog
