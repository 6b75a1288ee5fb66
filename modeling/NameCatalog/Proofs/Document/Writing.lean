import NameCatalog.Catalog.Builtin
import NameCatalog.Proofs.Document.Splitting
import NameCatalog.Proofs.Name.Rendering

/-!
# Catalogs written as documents

Identifiers of one package that stand in a row can be written as one entry, and entries without
names may stand anywhere between such runs. Reading the document gives the identifiers in the order
in which they were written, less the repeats.
-/

namespace NameCatalog

/-- The ways in which an entry declares no names. -/
inductive NoNames where
  | missing
  | null
  | empty

def NoNames.fields : NoNames → List (Value × Value)
  | missing => []
  | null => [(.text "names", .null)]
  | empty => [(.text "names", .list [])]

/-- What is written as one entry: names in a row of one package, or a package without names. -/
inductive Stretch where
  | run (p : Package) (names : List Segments)
  | idle (package : Text) (h : IsDotted package) (noNames : NoNames)

namespace Stretch

def identifiers : Stretch → List Identifier
  | run p names => names.map (Identifier.mk p)
  | idle _ _ _ => []

def entry : Stretch → Value
  | run p names =>
    .mapping [(.text "package", .text p.javaName),
      (.text "names", .list (names.map fun g => .text (g.joined dot)))]
  | idle package _ noNames => .mapping ((.text "package", .text package) :: noNames.fields)

def document (ss : List Stretch) : Value :=
  .mapping [(.text "packages", .list (ss.map entry))]

theorem declares_noNames (package : Value) (noNames : NoNames) :
    Document.Declares ((.text "package", package) :: noNames.fields) [] := by
  cases noNames with
  | missing => exact .missing rfl
  | null => exact .null rfl
  | empty => exact .list rfl

theorem entryGives_entry (s : Stretch) : Document.EntryGives s.entry s.identifiers := by
  cases s with
  | run p names =>
      refine ⟨_, _, names.map fun g => .text (g.joined dot), p, rfl, Value.lookup_cons_self _ _ _,
        p.ofDotted_javaName, .list rfl, ?_⟩
      rw [identifiers, List.forall₂_map_left_iff, List.forall₂_map_right_iff, List.forall₂_same]
      intro g _
      exact Identifier.ofDotted_joined p g
  | idle package h noNames =>
      obtain ⟨p, hp⟩ := Package.isDotted_iff.mp ⟨package, rfl, h⟩
      exact ⟨_, _, [], p, rfl, Value.lookup_cons_self _ _ _, hp, declares_noNames _ noNames, .nil⟩

theorem namesFrom_entries (i : Nat) (ss : List Stretch) :
    Document.namesFrom i (ss.map entry) = .ok (ss.flatMap identifiers) := by
  induction ss generalizing i with
  | nil => rfl
  | cons s ss ih =>
      have hhere : Document.entryNames i s.entry = .ok s.identifiers :=
        Document.entryNames_eq_ok_iff.mpr s.entryGives_entry
      simp only [List.map_cons, List.flatMap_cons, Document.namesFrom, bind_eq_ok_iff]
      exact ⟨_, hhere, _, ih (i + 1), rfl⟩

theorem names_document (ss : List Stretch) :
    Document.names (document ss) = .ok (ss.flatMap identifiers) :=
  (Document.names_withEntries [] (ss.map entry)).trans (namesFrom_entries 0 ss)

/-- Any row of identifiers with one package is a stretch, and nothing else is. -/
theorem exists_identifiers_iff {run : List Identifier} :
    (∃ s : Stretch, s.identifiers = run) ↔ ∃ p, ∀ x ∈ run, x.package = p := by
  constructor
  · rintro ⟨s, rfl⟩
    cases s with
    | run p names =>
        refine ⟨p, ?_⟩
        intro x hx
        obtain ⟨g, -, rfl⟩ := List.mem_map.mp hx
        rfl
    | idle package h noNames => exact ⟨Builtin.package, by simp [identifiers]⟩
  · rintro ⟨p, hp⟩
    refine ⟨.run p (run.map Identifier.name), ?_⟩
    rw [identifiers, List.map_map, List.map_congr_left (g := id), List.map_id]
    intro x hx
    simp [← hp x hx]

theorem exists_stretches_iff {runs : List (List Identifier)} :
    (∃ ss : List Stretch, ss.map identifiers = runs) ↔
      ∀ run ∈ runs, ∃ p, ∀ x ∈ run, x.package = p := by
  simp only [← exists_identifiers_iff]
  constructor
  · rintro ⟨ss, rfl⟩ run hrun
    obtain ⟨s, -, hs⟩ := List.mem_map.mp hrun
    exact ⟨s, hs⟩
  · intro h
    induction runs with
    | nil => exact ⟨[], rfl⟩
    | cons run runs ih =>
        obtain ⟨s, rfl⟩ := h run List.mem_cons_self
        obtain ⟨ss, rfl⟩ := ih fun r hr => h r (List.mem_cons_of_mem _ hr)
        exact ⟨s :: ss, rfl⟩

end Stretch

namespace Catalog

open Stretch (document identifiers)

theorem ofDocument_document (path : Text) (ss : List Stretch) :
    ofDocument path (document ss) =
      ⟨(repeats (ss.flatMap identifiers)).map (.duplicate · path) ++
          [.loaded (firsts (ss.flatMap identifiers)).length path],
        .ok (ofNames path (ss.flatMap identifiers)).result⟩ := by
  rw [ofDocument, Stretch.names_document]
  rfl

/-- Every list of identifiers can be written, and every way of cutting it into runs of one package
gives a document. Such a document is read without fault: the first occurrences come back in order,
each other occurrence is dropped with a warning, and the number of names is logged behind that. -/
theorem ofDocument_reads_back (path : Text) :
    (∀ runs : List (List Identifier), (∃ ss : List Stretch, ss.map identifiers = runs) ↔
        ∀ run ∈ runs, ∃ p, ∀ x ∈ run, x.package = p) ∧
      ∀ ss : List Stretch, ∃ (c : Catalog) (dropped : List Identifier),
        (ofDocument path (document ss)).result = .ok c ∧ c.source = path ∧
          c.names = (ss.flatMap identifiers).eraseDups ∧
          (c.names ++ dropped).Perm (ss.flatMap identifiers) ∧
          dropped.Sublist (ss.flatMap identifiers) ∧
          (ofDocument path (document ss)).notices.map Notice.message =
            dropped.map (fun x => ⟨.warning, "lintnames.catalog.schemas",
              "Duplicate name " ++ x.qualifiedName ++ " in " ++ path ++ " (keeping first)"⟩) ++
            [⟨.debug, "lintnames.catalog.loader",
              "Loaded " ++ toString c.names.length ++ " names from " ++ path⟩] ∧
          ((ss.flatMap identifiers).Nodup ↔ c.names = ss.flatMap identifiers ∧ dropped = []) := by
  refine ⟨fun runs => Stretch.exists_stretches_iff, ?_⟩
  intro ss
  rw [ofDocument_document]
  generalize ss.flatMap identifiers = xs
  refine ⟨_, repeats xs, rfl, rfl, firsts_eq_eraseDups xs, firsts_append_repeats_perm xs,
    repeats_sublist xs, ?_, ?_⟩
  · rw [List.map_append, List.map_map]
    rfl
  · constructor
    · intro hnd
      exact ⟨firsts_eq_self hnd, repeats_eq_nil hnd⟩
    · rintro ⟨hnames, -⟩
      rw [← hnames]
      exact nodup_firsts xs

/-- The second run repeats a name of the first, and an entry without names stands between them. -/
theorem ofDocument_reads_back_repeat :
    (∃ ss : List Stretch, ss.map identifiers =
        [[Builtin.composable, Builtin.remember], [], [Builtin.composable]]) ∧
      ∃ c, (ofDocument "names.yaml" (document
          [.run Builtin.package [Builtin.composable.name, Builtin.remember.name],
            .idle "a.b" (by decide) .null,
            .run Builtin.package [Builtin.composable.name]])).result = .ok c ∧
        c.names = [Builtin.composable, Builtin.remember] := by
  obtain ⟨hcut, hread⟩ := ofDocument_reads_back "names.yaml"
  refine ⟨(hcut _).mpr ?_, ?_⟩
  · intro run hrun
    refine ⟨Builtin.package, ?_⟩
    revert run
    decide
  · obtain ⟨c, _, hc, _, hnames, _⟩ := hread
      [.run Builtin.package [Builtin.composable.name, Builtin.remember.name],
        .idle "a.b" (by decide) .null, .run Builtin.package [Builtin.composable.name]]
    exact ⟨c, hc, hnames.trans (by decide)⟩

end Catalog

end NameCatalog
