import NameCatalog.Proofs.Name.Concatenation
import NameCatalog.Proofs.Name.Grammar

/-!
# Renderings and the texts they are made from

The renderings of an identifier are put together from the two texts that it was made from, with
slashes in the place of the package's dots in the internal one. Since a segment holds neither
character, the two renderings are got from one another by exchanging them, and they differ behind
each segment of the package and nowhere else.
-/

namespace NameCatalog

namespace Text

/-- A text with one character in the place of another, wherever that occurs. -/
def replaced (old new : CodePoint) (s : Text) : Text := s.map fun c => if c = old then new else c

/-- The places at which two texts do not have the same character. -/
def differences (s t : Text) : List Nat :=
  (List.range (max s.length t.length)).filter fun i => s.toList[i]? ≠ t.toList[i]?

theorem countP_range_map (f : CodePoint → CodePoint) (cs : List CodePoint) :
    (List.range cs.length).countP (fun i => cs[i]? ≠ (cs.map f)[i]?) =
      cs.countP fun c => c ≠ f c := by
  induction cs with
  | nil => rfl
  | cons c cs ih =>
      rw [List.length_cons, List.range_succ_eq_map, List.countP_cons, List.countP_map,
        List.countP_cons, ← ih]
      simp [Function.comp_def]

theorem length_differences_map (f : CodePoint → CodePoint) (s : Text) :
    (differences s (s.map f)).length = s.toList.countP fun c => c ≠ f c := by
  have hlength : (s.map f).length = s.length := by
    rw [← Text.length_toList, Text.toList_map, List.length_map, Text.length_toList]
  rw [differences, hlength, Nat.max_self, ← List.countP_eq_length_filter, Text.toList_map,
    ← Text.length_toList]
  exact countP_range_map f s.toList

/-- A text is changed at as many places as hold the character. -/
theorem length_differences_replaced {old new : CodePoint} (h : old ≠ new) (s : Text) :
    (differences s (replaced old new s)).length = s.toList.count old := by
  rw [replaced, length_differences_map, List.count_eq_countP]
  apply List.countP_congr
  intro c _
  by_cases hc : c = old
  · simp [hc, h]
  · simp [hc]

end Text

theorem slashed_eq_replaced (s : Text) : slashed s = Text.replaced dot slash s := by
  apply Text.toList_injective
  rw [slashed, Text.toList_ofList, Text.replaced, Text.toList_map]

namespace Identifier

variable (x : Identifier)

theorem replaced_internalClassName :
    Text.replaced slash dot x.internalClassName = x.qualifiedName := by
  apply Text.toList_injective
  rw [Text.replaced, Text.toList_map, internalClassName, qualifiedName, toList_render,
    toList_render]
  exact Text.map_joinWith_of_not_mem dot x.slash_not_mem_spelt

/-- There is a slash behind each segment of the package, and no other. -/
theorem count_slash_internalClassName :
    x.internalClassName.toList.count slash = x.package.segments.toList.length := by
  have hpieces : Text.pieces slash x.internalClassName.toList = x.spelt := by
    rw [internalClassName, toList_render]
    exact Text.pieces_joinWith (by simp [spelt]) x.slash_not_mem_spelt
  have hlength := Text.length_pieces slash x.internalClassName.toList
  rw [hpieces, spelt, List.length_append, Segments.spelt, List.length_map] at hlength
  exact Nat.succ_inj.mp hlength.symm

theorem length_differences_renderings :
    (Text.differences x.internalClassName x.qualifiedName).length =
      x.package.segments.toList.length := by
  calc
    (Text.differences x.internalClassName x.qualifiedName).length =
        (Text.differences x.internalClassName
          (Text.replaced slash dot x.internalClassName)).length := by
      rw [replaced_internalClassName]
    _ = x.internalClassName.toList.count slash :=
      Text.length_differences_replaced (by decide) x.internalClassName
    _ = x.package.segments.toList.length := x.count_slash_internalClassName

theorem shortName_eq_innermost_qualifiedName : x.shortName = innermost x.qualifiedName := by
  rw [shortName_eq_last, Segments.last_eq_innermost, qualifiedName_eq_joined]

end Identifier

/-- A package text and a name text within the grammar make an identifier. Its Java name, which is
also how it is shown, is the one, a dot and the other; the internal name has slashes for the dots of
the package and a slash in between. With dots for its slashes the internal name is the Java name
again, and it differs from that in as many places as the package has segments. What is behind the
last dot of the name, or as well of the Java name, is the short name. -/
theorem renderings_of_texts {s n : Text} (hs : DottedGrammar s) (hn : DottedGrammar n) :
    ∃ (p : Package) (x : Identifier),
      (Package.ofDotted (.text s) = .ok p ∧ Identifier.ofDotted p (.text n) = .ok x) ∧
      (x.qualifiedName = s ++ "." ++ n ∧ (Item.identifier x).shown = s ++ "." ++ n) ∧
      x.internalClassName = Text.replaced dot slash s ++ "/" ++ n ∧
      Text.replaced slash dot x.internalClassName = x.qualifiedName ∧
      (Text.differences x.internalClassName x.qualifiedName).length =
        p.segments.toList.length ∧
      x.shortName = innermost n ∧ x.shortName = innermost x.qualifiedName := by
  obtain ⟨p, hp⟩ := Package.isDotted_iff.mp (Value.isDotted_text_iff.mpr hs)
  obtain ⟨x, hx⟩ := (Identifier.isDotted_iff p).mp (Value.isDotted_text_iff.mpr hn)
  obtain rfl := Package.ofDotted_text_eq_ok_iff.mp hp
  obtain ⟨rfl, rfl⟩ := Identifier.ofDotted_text_eq_ok_iff.mp hx
  refine ⟨x.package, x, ⟨hp, hx⟩, ⟨x.render_java, x.render_java⟩, ?_,
    x.replaced_internalClassName, x.length_differences_renderings, x.shortName_eq,
    x.shortName_eq_innermost_qualifiedName⟩
  rw [← slashed_eq_replaced]
  exact x.render_internal

/-- A nested name in a package of three segments. -/
theorem renderings_of_texts_nested :
    let s : Text := "androidx.compose.runtime"
    let n : Text := "CompositionLocal.Key"
    (DottedGrammar s ∧ DottedGrammar n) ∧
      ∃ (p : Package) (x : Identifier),
        (Package.ofDotted (.text s) = .ok p ∧ Identifier.ofDotted p (.text n) = .ok x) ∧
        x.qualifiedName = "androidx.compose.runtime.CompositionLocal.Key" ∧
        x.internalClassName = "androidx/compose/runtime/CompositionLocal.Key" ∧
        (Text.differences x.internalClassName x.qualifiedName).length = 3 ∧
        x.shortName = "Key" := by
  intro s n
  have hs : DottedGrammar s := by decide
  have hn : DottedGrammar n := by decide
  obtain ⟨p, x, hmade, ⟨hjava, -⟩, hinternal, -, hplaces, hshort, -⟩ := renderings_of_texts hs hn
  have hbuiltin : Builtin.package.javaName = s := by decide
  obtain rfl : Builtin.package = p :=
    Package.render_inj.mp (hbuiltin.trans (Package.ofDotted_text_eq_ok_iff.mp hmade.1).symm)
  rw [← slashed_eq_replaced] at hinternal
  exact ⟨⟨hs, hn⟩, _, x, hmade, hjava.trans (by decide), hinternal.trans (by decide), hplaces,
    hshort.trans (by decide)⟩

end NameCatalog
