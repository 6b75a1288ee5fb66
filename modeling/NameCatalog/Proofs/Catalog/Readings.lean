import Mathlib.Data.List.FinRange
import NameCatalog.Proofs.Catalog.Merging
import NameCatalog.Proofs.Name.Concatenation

/-!
# Identifiers with one Java name

The Java name of an identifier does not tell where its package ends, and that is all it does not
tell: there is one identifier for each dot of the name. They share the innermost declaration's name
but no internal name, and a catalog has room for all of them.
-/

namespace NameCatalog

namespace Segments

/-- The segments up to the one of the given number. -/
def upTo (g : Segments) (i : Nat) : Segments :=
  ⟨g.toList.take (i + 1), by simpa using g.ne_nil,
    fun s hs => g.isSegment s (List.mem_of_mem_take hs)⟩

/-- The segments behind the one of the given number. -/
def behind (g : Segments) (i : Nat) (h : i + 1 < g.toList.length) : Segments :=
  ⟨g.toList.drop (i + 1), by simpa using h, fun s hs => g.isSegment s (List.mem_of_mem_drop hs)⟩

/-- The identifier whose package ends with the segment of the given number. -/
def cut (g : Segments) (i : Fin (g.toList.length - 1)) : Identifier :=
  ⟨⟨g.upTo i⟩, g.behind i (Nat.add_lt_of_lt_sub i.isLt)⟩

/-- The identifiers that have the given segments in a row, those with shorter packages first. -/
def readings (g : Segments) : List Identifier := (List.finRange (g.toList.length - 1)).map g.cut

section Cut

variable {g : Segments} (i : Fin (g.toList.length - 1))

theorem append_cut : (g.cut i).package.segments ++ (g.cut i).name = g :=
  toList_injective (List.take_append_drop (i + 1) g.toList)

theorem length_cut : (g.cut i).package.segments.toList.length = i + 1 := by
  have hi := i.isLt
  rw [cut, upTo, List.length_take]
  omega

theorem cut_injective : Function.Injective g.cut := by
  intro i j h
  have hlength := length_cut i
  rw [h, length_cut] at hlength
  omega

end Cut

theorem mem_readings_iff {g : Segments} {x : Identifier} :
    x ∈ g.readings ↔ x.package.segments ++ x.name = g := by
  rw [readings, List.mem_map]
  constructor
  · rintro ⟨i, -, rfl⟩
    exact append_cut i
  · rintro rfl
    have hpackage := List.length_pos_iff.mpr x.package.segments.ne_nil
    have hname := List.length_pos_iff.mpr x.name.ne_nil
    have hlast : x.package.segments.toList.length - 1 <
        (x.package.segments ++ x.name).toList.length - 1 := by
      rw [toList_append, List.length_append]
      omega
    -- Where the package ends is told by its length alone.
    have hlength := (length_cut ⟨_, hlast⟩).trans (Nat.sub_add_cancel hpackage)
    obtain ⟨hfront, hback⟩ := List.append_inj (congrArg toList (append_cut _)) hlength
    exact ⟨_, List.mem_finRange _,
      Identifier.eq_of_segments (toList_injective hfront) (toList_injective hback)⟩

theorem nodup_readings (g : Segments) : g.readings.Nodup :=
  (List.nodup_finRange _).map cut_injective

theorem length_readings (g : Segments) : g.readings.length = (g.joined dot).toList.count dot := by
  rw [readings, List.length_map, List.length_finRange, length_eq_count_joined, Nat.add_sub_cancel]

/-- A dot of the joined text ends the package of exactly one reading. -/
theorem existsUnique_reading {g : Segments} {before after : Text}
    (h : g.joined dot = before ++ "." ++ after) :
    ∃! x, x ∈ g.readings ∧ x.package.javaName = before := by
  have hread := ofDotted_joined .package g
  rw [h] at hread
  obtain ⟨a, b, ha, -, rfl⟩ := ofDotted_append_eq_ok_iff.mp hread
  have hjava : (⟨a⟩ : Package).javaName = before := ofDotted_text_eq_ok_iff.mp ha
  refine ⟨⟨⟨a⟩, b⟩, ⟨mem_readings_iff.mpr rfl, hjava⟩, ?_⟩
  rintro x ⟨hx, hpackage⟩
  have hsame : x.package.segments = a :=
    congrArg Package.segments (Package.render_inj.mp (hpackage.trans hjava.symm))
  have hrow := congrArg toList (mem_readings_iff.mp hx)
  rw [hsame, toList_append, toList_append, List.append_right_inj] at hrow
  exact Identifier.eq_of_segments hsame (toList_injective hrow)

theorem mem_readings_iff_qualifiedName {g : Segments} {x : Identifier} :
    x ∈ g.readings ↔ x.qualifiedName = g.joined dot := by
  rw [mem_readings_iff, Identifier.qualifiedName_eq_joined]
  constructor
  · exact congrArg (joined dot)
  · exact joined_injective (by decide)

theorem nodup_internalClassName_readings (g : Segments) :
    (g.readings.map Identifier.internalClassName).Nodup :=
  g.nodup_readings.map fun _ _ => Identifier.internalClassName_injective

end Segments

open Segments

/-- A text with a dot in it is read as what is read from both of its sides, one behind the other.
So the Java name of an identifier is read as a package of all its segments, and it is shared by the
identifiers whose segments make up the same row. For each dot of a text that can be read there is
exactly one of them with what stands in front of the dot as its package, and there are no others.
The short name of all is the last segment; the internal names differ, and a catalog made of all of
them, in any order, keeps them all and reports none. -/
theorem qualifiedName_is_ambiguous :
    (∀ (s t : Text) (r : Package), Package.ofDotted (.text (s ++ "." ++ t)) = .ok r ↔
      ∃ p q, Package.ofDotted (.text s) = .ok p ∧ Package.ofDotted (.text t) = .ok q ∧
        r = ⟨p.segments ++ q.segments⟩) ∧
    (∀ x : Identifier,
      Package.ofDotted (.text x.qualifiedName) = .ok ⟨x.package.segments ++ x.name⟩) ∧
    (∀ x y : Identifier, x.qualifiedName = y.qualifiedName ↔
      x.package.segments ++ x.name = y.package.segments ++ y.name) ∧
    ∀ (q : Text) (p : Package), Package.ofDotted (.text q) = .ok p →
      (∀ x, x ∈ p.segments.readings ↔ x.qualifiedName = q) ∧
      p.segments.readings.Nodup ∧
      p.segments.readings.length = q.toList.count dot ∧
      (∀ before after : Text, before ++ "." ++ after = q →
        ∃! x, x ∈ p.segments.readings ∧ x.package.javaName = before) ∧
      (∀ x ∈ p.segments.readings, x.shortName = p.segments.last) ∧
      (p.segments.readings.map Identifier.internalClassName).Nodup ∧
      ∀ (source : Text) (names : List Identifier), names.Perm p.segments.readings →
        (Catalog.ofNames source names).notices = [] ∧
          (Catalog.ofNames source names).result.names = names := by
  refine ⟨?_, Identifier.ofDotted_qualifiedName, fun x y => Identifier.qualifiedName_eq_iff, ?_⟩
  · intro s t r
    exact Package.ofDotted_append_eq_ok_iff
  · intro q p hp
    obtain rfl : p.segments.joined dot = q := Package.ofDotted_text_eq_ok_iff.mp hp
    refine ⟨fun x => mem_readings_iff_qualifiedName, nodup_readings _, length_readings _, ?_, ?_,
      nodup_internalClassName_readings _, ?_⟩
    · intro before after h
      exact existsUnique_reading h.symm
    · intro x hx
      rw [Identifier.shortName_eq_last, mem_readings_iff.mp hx]
    · intro source names hnames
      have hnodup : names.Nodup := hnames.nodup_iff.mpr (nodup_readings _)
      rw [Catalog.ofNames_of_nodup source hnodup]
      exact ⟨rfl, rfl⟩

/-- Four segments, of which the last two may be a nested name. -/
theorem qualifiedName_is_ambiguous_four_segments :
    let p : Package := ⟨["a", "b", "c", "d"], by decide, by decide⟩
    let nested : Identifier :=
      ⟨⟨["a", "b"], by decide, by decide⟩, ⟨["c", "d"], by decide, by decide⟩⟩
    Package.ofDotted (.text "a.b.c.d") = .ok p ∧
      (nested ∈ p.segments.readings ∧ nested.shortName = p.segments.last) ∧
      p.segments.readings.length = (Text.toList "a.b.c.d").count dot ∧
      (∃! x, x ∈ p.segments.readings ∧ x.package.javaName = "a.b") ∧
      (Catalog.ofNames "names.yaml" p.segments.readings.reverse).notices = [] ∧
        (Catalog.ofNames "names.yaml" p.segments.readings.reverse).result.names =
          p.segments.readings.reverse := by
  intro p nested
  obtain ⟨-, -, -, hreadings⟩ := qualifiedName_is_ambiguous
  have hp : Package.ofDotted (.text "a.b.c.d") = .ok p :=
    Package.ofDotted_text_eq_ok_iff.mpr (by decide)
  obtain ⟨hmem, -, hlength, hdots, hshort, -, hcatalog⟩ := hreadings "a.b.c.d" p hp
  have hnested : nested ∈ p.segments.readings := (hmem nested).mpr (by decide)
  exact ⟨hp, ⟨hnested, hshort nested hnested⟩, hlength, hdots "a.b" "c.d" (by decide),
    hcatalog "names.yaml" _ p.segments.readings.reverse_perm⟩

end NameCatalog
