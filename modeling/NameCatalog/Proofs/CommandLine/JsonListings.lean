import Mathlib.Data.List.Forall2
import NameCatalog.CommandLine.Run
import NameCatalog.Proofs.Json.Spelling
import NameCatalog.Proofs.Name.Pairs

/-!
# Listings in JSON

A listing in JSON and the object of a render with all styles are ASCII documents, and what they
decode to is the renderings of the identifiers with their pairs of surrogates joined. Where there
are no such pairs, the document tells the names.
-/

namespace NameCatalog

namespace Json

/-- A text is an ASCII document of a value. -/
structure Decodes (written : Text) (v : Json) : Prop where
  ascii : IsAscii written.toList
  reads : read written = some v

variable {written : Text} {v w : Json}

theorem Decodes.unique (hv : Decodes written v) (hw : Decodes written w) : v = w :=
  Option.some_inj.mp (hv.reads.symm.trans hw.reads)

theorem Spells.decodes (h : Spells (indentedChars 0 v) w) : Decodes v.indented w where
  ascii := by
    rw [indented, Text.toList_ofList]
    exact h.ascii
  reads := by
    have hread := h.read_append (List.forall_mem_nil _)
    rwa [List.append_nil] at hread

theorem Spells.decodes_line (h : Spells (indentedChars 0 v) w) :
    Decodes (v.indented ++ "\n") w := by
  have hline : v.indented ++ "\n" = Text.ofList (indentedChars 0 v ++ [.char '\n']) :=
    Text.toList_injective (by simp [indented])
  rw [hline]
  refine ⟨?_, h.read_append (List.forall_mem_singleton.mpr rfl)⟩
  rw [Text.toList_ofList]
  exact isAscii_append.mpr ⟨h.ascii, by decide⟩

end Json

namespace CommandLine

open Json (Spells Decodes)

/-- What a reader of the JSON output finds for an identifier. -/
def decoded (x : Identifier) : Json :=
  .object [
    ("qualified_name", .text (x.render .java)), ("internal_class_name", .text (x.render .internal)),
    ("short_name", .text (x.name.toList.getLast x.name.ne_nil))]

theorem decoded_injective {x y : Identifier} (h : decoded x = decoded y) : x = y := by
  simp only [decoded, Json.object.injEq, List.cons.injEq, Prod.mk.injEq, Json.text.injEq,
    true_and] at h
  exact Identifier.internalClassName_injective h.2.1

theorem spells_formsOf (depth : Nat) (x : Identifier) :
    Spells (Json.indentedChars depth (formsOf x)) (decoded x.withPairsJoined) := by
  have hmember (k s : Text) (hk : Text.withPairsJoined k = k) :
      Json.SpellsMember (depth + 1) (k, .text s) (k, .text (Text.withPairsJoined s)) :=
    ⟨hk.symm, Json.spells_quoted s⟩
  have hdecoded : decoded x.withPairsJoined = .object [
      ("qualified_name", .text (Text.withPairsJoined x.qualifiedName)),
      ("internal_class_name", .text (Text.withPairsJoined x.internalClassName)),
      ("short_name", .text (Text.withPairsJoined x.shortName))] := by
    rw [Identifier.qualifiedName, Identifier.internalClassName,
      ← Identifier.render_withPairsJoined, ← Identifier.render_withPairsJoined,
      ← Identifier.shortName_withPairsJoined]
    rfl
  rw [hdecoded, formsOf]
  refine Json.spells_object (.cons ?_ (.cons ?_ (.cons ?_ .nil))) (List.cons_ne_nil _ _)
  · exact hmember _ _ (by decide)
  · exact hmember _ _ (by decide)
  · exact hmember _ _ (by decide)

theorem spells_listed (c : Catalog) :
    Spells (Json.indentedChars 0 (.array (c.names.map formsOf)))
      (.array (c.names.map fun x => decoded x.withPairsJoined)) := by
  refine Json.spells_array ?_
  rw [List.forall₂_map_left_iff, List.forall₂_map_right_iff, List.forall₂_same]
  exact fun x _ => spells_formsOf 1 x

theorem decodes_listed (c : Catalog) :
    Decodes (listed c .json) (.array (c.names.map fun x => decoded x.withPairsJoined)) :=
  (spells_listed c).decodes

theorem decodes_rendered (x : Identifier) :
    Decodes (rendered x .all ++ "\n") (decoded x.withPairsJoined) :=
  (spells_formsOf 0 x).decodes_line

theorem map_joined_of_listed {c d : Catalog} (h : listed c .json = listed d .json) :
    c.names.map Identifier.withPairsJoined = d.names.map Identifier.withPairsJoined := by
  have hc := decodes_listed c
  rw [h] at hc
  have hsame := Json.array.inj (hc.unique (decodes_listed d))
  refine List.map_injective_iff.mpr (fun _ _ => decoded_injective) ?_
  rw [List.map_map, List.map_map]
  exact hsame

/-- A pair is never read back. -/
theorem pairFree_of_decodes {c : Catalog}
    (h : Decodes (listed c .json) (.array (c.names.map decoded))) : ∀ x ∈ c.names, x.PairFree := by
  intro x hx
  have hsame := Json.array.inj (h.unique (decodes_listed c))
  have hjoined := List.map_inj_left.mp hsame x hx
  exact Identifier.withPairsJoined_eq_self_iff.mp (decoded_injective hjoined).symm

theorem joined_of_rendered {x y : Identifier} (h : rendered x .all = rendered y .all) :
    x.withPairsJoined = y.withPairsJoined := by
  have hx := decodes_rendered x
  rw [h] at hx
  exact decoded_injective (hx.unique (decodes_rendered y))

theorem map_withPairsJoined {xs : List Identifier} (h : ∀ x ∈ xs, x.PairFree) :
    xs.map Identifier.withPairsJoined = xs := by
  have hsame : ∀ x ∈ xs, x.withPairsJoined = id x := by
    intro x hx
    exact Identifier.withPairsJoined_eq_self_iff.mpr (h x hx)
  rw [List.map_congr_left hsame, List.map_id]

/-- The JSON output of a catalog, and of a render with all styles, decodes to the renderings of the
identifiers with their pairs joined, and so to their own renderings exactly when no segment holds a
pair. Equal output comes from names that are equal up to their pairs. -/
theorem json_output_decodes (c : Catalog) (x : Identifier) :
    (Decodes (listed c .json) (.array (c.names.map fun y => decoded y.withPairsJoined)) ∧
      (Decodes (listed c .json) (.array (c.names.map decoded)) ↔ ∀ y ∈ c.names, y.PairFree) ∧
      ∀ d : Catalog, listed c .json = listed d .json →
        c.names.map Identifier.withPairsJoined = d.names.map Identifier.withPairsJoined ∧
          ((∀ y ∈ c.names, y.PairFree) → (∀ y ∈ d.names, y.PairFree) → c.names = d.names)) ∧
    (Decodes (rendered x .all ++ "\n") (decoded x.withPairsJoined) ∧
      (Decodes (rendered x .all ++ "\n") (decoded x) ↔ x.PairFree) ∧
      ∀ y : Identifier, rendered x .all = rendered y .all →
        x.withPairsJoined = y.withPairsJoined ∧ (x.PairFree → y.PairFree → x = y)) := by
  refine ⟨⟨decodes_listed c, ⟨pairFree_of_decodes, ?_⟩, ?_⟩, decodes_rendered x, ⟨?_, ?_⟩, ?_⟩
  · intro hfree
    have hdecodes := decodes_listed c
    rwa [← Function.comp_def, ← List.map_map, map_withPairsJoined hfree] at hdecodes
  · intro d hlisted
    have hjoined := map_joined_of_listed hlisted
    refine ⟨hjoined, ?_⟩
    intro hc hd
    rwa [map_withPairsJoined hc, map_withPairsJoined hd] at hjoined
  · intro hplain
    exact Identifier.withPairsJoined_eq_self_iff.mp
      (decoded_injective (hplain.unique (decodes_rendered x))).symm
  · intro hfree
    have hdecodes := decodes_rendered x
    rwa [Identifier.withPairsJoined_eq_self_iff.mpr hfree] at hdecodes
  · intro y hrendered
    have hjoined := joined_of_rendered hrendered
    refine ⟨hjoined, ?_⟩
    intro hx hy
    rwa [Identifier.withPairsJoined_eq_self_iff.mpr hx,
      Identifier.withPairsJoined_eq_self_iff.mpr hy] at hjoined

/-- The catalog of one name of one segment. -/
def singleCatalog (cs : List CodePoint) (h : IsSegment (Text.ofList cs)) : Catalog where
  names := [⟨⟨⟨["p"], by decide, by decide⟩⟩,
    ⟨[Text.ofList cs], List.cons_ne_nil _ _, List.forall_mem_singleton.mpr h⟩⟩]
  source := "names.yaml"
  nodup := List.nodup_cons.mpr ⟨List.not_mem_nil, List.nodup_nil⟩

/-- A pair of surrogates is listed like the character that it stands for. -/
theorem json_output_hides_pair :
    let pair := [CodePoint.ofNat 0xd83d, CodePoint.ofNat 0xde00]
    let face := [CodePoint.ofNat 0x1f600]
    ∃ (hp : IsSegment (Text.ofList pair)) (hf : IsSegment (Text.ofList face)),
      let c := singleCatalog pair hp
      let d := singleCatalog face hf
      listed c .json = listed d .json ∧ c.names ≠ d.names ∧
        ¬ Decodes (listed c .json) (.array (c.names.map decoded)) := by
  intro pair face
  refine ⟨by decide, by decide, ?_, ?_, ?_⟩
  · decide +kernel
  · decide +kernel
  · intro hplain
    have hfree := pairFree_of_decodes hplain _ List.mem_cons_self
    revert hfree
    decide +kernel

end CommandLine

end NameCatalog
