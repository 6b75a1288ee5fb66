import Mathlib.Data.List.Basic
import NameCatalog.Text.Pieces

/-!
# Cutting and joining are inverse

Pieces that do not hold the separator come back when they are joined and cut again. Both functions
are those of the list library, spelt out by recursion.
-/

namespace NameCatalog.Text

theorem pieces_eq_splitOn (sep : CodePoint) (cs : List CodePoint) :
    pieces sep cs = cs.splitOn sep := by
  induction cs with
  | nil => rfl
  | cons c cs ih =>
      rw [List.splitOn_cons_eq_if_modifyHead, ← ih, pieces]
      by_cases hc : c = sep
      · simp [hc]
      · cases hp : pieces sep cs with
        | nil => exact absurd hp (pieces_ne_nil sep cs)
        | cons piece rest => simp [hc]

theorem joinWith_eq_intercalate (sep : List CodePoint) (ps : List (List CodePoint)) :
    joinWith sep ps = sep.intercalate ps := by
  induction ps with
  | nil => rfl
  | cons piece rest ih =>
      cases rest with
      | nil => simp [joinWith]
      | cons next rest =>
          rw [joinWith_cons (List.cons_ne_nil next rest), ih, List.intercalate_cons_cons]

/-- Cutting undoes joining when there is something to join and no piece holds the separator. -/
theorem pieces_joinWith {sep : CodePoint} {ps : List (List CodePoint)} (hne : ps ≠ [])
    (hsep : ∀ piece ∈ ps, sep ∉ piece) : pieces sep (joinWith [sep] ps) = ps := by
  rw [pieces_eq_splitOn, joinWith_eq_intercalate]
  exact List.splitOn_intercalate sep hsep hne

theorem joinWith_injective {sep : CodePoint} {ps qs : List (List CodePoint)} (hps : ps ≠ [])
    (hqs : qs ≠ []) (hp : ∀ piece ∈ ps, sep ∉ piece) (hq : ∀ piece ∈ qs, sep ∉ piece)
    (h : joinWith [sep] ps = joinWith [sep] qs) : ps = qs := by
  rw [← pieces_joinWith hps hp, h, pieces_joinWith hqs hq]

/-- Between two rows of pieces stands one separator. -/
theorem joinWith_append {sep : List CodePoint} {ps qs : List (List CodePoint)} (hps : ps ≠ [])
    (hqs : qs ≠ []) : joinWith sep (ps ++ qs) = joinWith sep ps ++ sep ++ joinWith sep qs := by
  induction ps with
  | nil => exact absurd rfl hps
  | cons piece rest ih =>
      cases rest with
      | nil => exact joinWith_cons hqs
      | cons next rest =>
          have hrest : next :: rest ≠ [] := List.cons_ne_nil next rest
          have hlonger : next :: rest ++ qs ≠ [] := List.append_ne_nil_of_left_ne_nil hrest _
          rw [List.cons_append, joinWith_cons hlonger, ih hrest, joinWith_cons hrest]
          simp only [List.append_assoc]

theorem joinWith_concat {sep : List CodePoint} {ps : List (List CodePoint)} (hne : ps ≠ [])
    (last : List CodePoint) : joinWith sep (ps ++ [last]) = joinWith sep ps ++ sep ++ last :=
  joinWith_append hne (List.cons_ne_nil last [])

theorem pieces_append_cons (sep : CodePoint) (xs ys : List CodePoint) :
    pieces sep (xs ++ sep :: ys) = pieces sep xs ++ pieces sep ys := by
  simp only [pieces_eq_splitOn]
  exact List.splitOn_append_cons_self xs ys

theorem mem_joinWith {sep : List CodePoint} {ps : List (List CodePoint)} {c : CodePoint}
    (h : c ∈ joinWith sep ps) : c ∈ sep ∨ ∃ piece ∈ ps, c ∈ piece := by
  induction ps with
  | nil => simp [joinWith] at h
  | cons piece rest ih =>
      cases rest with
      | nil => exact .inr ⟨piece, by simp, by simpa [joinWith] using h⟩
      | cons next rest =>
          rw [joinWith_cons (by simp), List.mem_append, List.mem_append] at h
          rcases h with (hpiece | hsep) | hrest
          · exact .inr ⟨piece, by simp, hpiece⟩
          · exact .inl hsep
          · rcases ih hrest with hsep | ⟨later, hlater, hc⟩
            · exact .inl hsep
            · exact .inr ⟨later, List.mem_cons_of_mem piece hlater, hc⟩

theorem mem_joinWith_of_mem (sep : List CodePoint) {ps : List (List CodePoint)}
    {piece : List CodePoint} {c : CodePoint}
    (hpiece : piece ∈ ps) (hc : c ∈ piece) : c ∈ joinWith sep ps := by
  induction ps with
  | nil => cases hpiece
  | cons first rest ih =>
      cases rest with
      | nil =>
          rw [List.mem_singleton.mp hpiece] at hc
          exact hc
      | cons next rest =>
          rw [joinWith_cons (List.cons_ne_nil next rest)]
          rcases List.mem_cons.mp hpiece with rfl | hlater
          · exact List.mem_append_left _ (List.mem_append_left sep hc)
          · exact List.mem_append_right _ (ih hlater)

/-- There is a piece behind each separator, and one in front of all. -/
theorem length_pieces (sep : CodePoint) (cs : List CodePoint) :
    (pieces sep cs).length = cs.count sep + 1 := by
  induction cs with
  | nil => rfl
  | cons c cs ih =>
      unfold pieces
      by_cases hc : c = sep
      · simp [hc, ih]
      · rw [if_neg hc]
        cases hp : pieces sep cs with
        | nil => exact absurd hp (pieces_ne_nil sep cs)
        | cons piece rest =>
            rw [hp] at ih
            simpa [hc] using ih

/-- Separators within the joined parts make pieces of their own. -/
theorem length_pieces_joinWith (sep : CodePoint) {ps : List (List CodePoint)} (hne : ps ≠ []) :
    (pieces sep (joinWith [sep] ps)).length = ps.length + ps.flatten.count sep := by
  rw [length_pieces]
  induction ps with
  | nil => exact absurd rfl hne
  | cons piece rest ih =>
      cases rest with
      | nil => simp [joinWith, Nat.add_comm]
      | cons next rest =>
          have hrest := ih (List.cons_ne_nil next rest)
          rw [joinWith_cons (List.cons_ne_nil next rest)]
          simp only [List.count_append, List.count_singleton_self, List.flatten_cons,
            List.length_cons] at hrest ⊢
          omega

/-- No piece holds the separator, and every other character of a piece is one of the text. -/
theorem not_mem_of_mem_pieces {sep : CodePoint} {cs piece : List CodePoint}
    (h : piece ∈ pieces sep cs) :
    sep ∉ piece ∧ ∀ c ∈ piece, c ∈ cs := by
  induction cs generalizing piece with
  | nil =>
      have hnil : piece = [] := by simpa using h
      simp [hnil]
  | cons d cs ih =>
      unfold pieces at h
      by_cases hd : d = sep
      · rw [if_pos hd] at h
        rcases List.mem_cons.mp h with rfl | h
        · simp
        · exact ⟨(ih h).1, fun c hc => List.mem_cons_of_mem d ((ih h).2 c hc)⟩
      · rw [if_neg hd] at h
        cases hp : pieces sep cs with
        | nil => exact absurd hp (pieces_ne_nil sep cs)
        | cons first rest =>
            rw [hp] at h ih
            rcases List.mem_cons.mp h with rfl | h
            · obtain ⟨hsep, hall⟩ := ih (List.mem_cons_self)
              refine ⟨?_, ?_⟩
              · simpa [Ne.symm hd] using hsep
              · intro c hc
                rcases List.mem_cons.mp hc with rfl | hc
                · exact List.mem_cons_self
                · exact List.mem_cons_of_mem d (hall c hc)
            · obtain ⟨hsep, hall⟩ := ih (List.mem_cons_of_mem first h)
              exact ⟨hsep, fun c hc => List.mem_cons_of_mem d (hall c hc)⟩

/-- Each character of the text other than the separator is in a piece. -/
theorem exists_mem_pieces {sep c : CodePoint} {cs : List CodePoint} (h : c ∈ cs) (hne : c ≠ sep) :
    ∃ piece ∈ pieces sep cs, c ∈ piece := by
  rw [← joinWith_pieces sep cs] at h
  rcases mem_joinWith h with hsep | hpiece
  · exact absurd (List.mem_singleton.mp hsep) hne
  · exact hpiece

/-! ## Empty pieces -/

theorem head?_pieces_eq_nil_iff {sep : CodePoint} {cs : List CodePoint} :
    (pieces sep cs).head? = some [] ↔ cs = [] ∨ [sep] <+: cs := by
  cases cs with
  | nil => simp
  | cons c cs =>
      unfold pieces
      by_cases hc : c = sep
      · simp [hc]
      · rw [if_neg hc, List.singleton_prefix_cons_iff]
        cases pieces sep cs with
        | nil => simp [Ne.symm hc]
        | cons piece rest => simp [Ne.symm hc]

theorem nil_mem_pieces_iff_head {sep : CodePoint} {cs : List CodePoint} :
    [] ∈ pieces sep cs ↔ (pieces sep cs).head? = some [] ∨ [] ∈ (pieces sep cs).tail := by
  cases pieces sep cs with
  | nil => simp
  | cons piece rest => simp [eq_comm]

/-- Behind the first piece, an empty one stands at the end or between two separators. -/
theorem nil_mem_tail_pieces_iff {sep : CodePoint} {cs : List CodePoint} :
    [] ∈ (pieces sep cs).tail ↔ [sep] <:+ cs ∨ [sep, sep] <:+: cs := by
  induction cs with
  | nil => simp
  | cons c cs ih =>
      rw [List.suffix_cons_iff, List.infix_cons_iff, List.cons_prefix_cons]
      by_cases hc : c = sep
      · have htail : (pieces sep (c :: cs)).tail = pieces sep cs := by
          rw [pieces, if_pos hc, List.tail_cons]
        rw [htail, nil_mem_pieces_iff_head, head?_pieces_eq_nil_iff, ih]
        simp only [hc, List.cons.injEq, true_and, eq_comm]
        tauto
      · have htail : (pieces sep (c :: cs)).tail = (pieces sep cs).tail := by
          rw [pieces, if_neg hc]
          cases pieces sep cs with
          | nil => rfl
          | cons piece rest => rfl
        rw [htail, ih]
        simp [Ne.symm hc]

/-- A piece is empty when the text is, or when a separator has no text on one of its sides. -/
theorem nil_mem_pieces_iff {sep : CodePoint} {cs : List CodePoint} :
    [] ∈ pieces sep cs ↔ cs = [] ∨ [sep] <+: cs ∨ [sep] <:+ cs ∨ [sep, sep] <:+: cs := by
  rw [nil_mem_pieces_iff_head, head?_pieces_eq_nil_iff, nil_mem_tail_pieces_iff, or_assoc]

/-! ## Joined texts -/

theorem toList_join (sep : Text) (parts : List Text) :
    (join sep parts).toList = joinWith sep.toList (parts.map Text.toList) := by
  rw [join, Text.toList_ofList]

theorem join_empty_concat (parts : List Text) (last : Text) :
    join "" (parts ++ [last]) = join "" parts ++ last := by
  refine Text.toList_injective ?_
  rw [Text.toList_append, toList_join, toList_join, List.map_append, List.map_singleton]
  cases parts with
  | nil => rfl
  | cons part parts =>
      rw [List.map_cons, joinWith_concat (List.cons_ne_nil _ _), Text.toList_empty,
        List.append_nil]

theorem join_ne_empty {sep : Text} (hsep : sep ≠ "") (first second : Text)
    (rest : List Text) : join sep (first :: second :: rest) ≠ "" := by
  intro h
  have hlist := congrArg Text.toList h
  rw [toList_join, List.map_cons, joinWith_cons (by simp)] at hlist
  have hnone : sep.toList = [] := by
    simp only [Text.toList_empty, List.append_eq_nil_iff] at hlist
    exact hlist.1.2
  exact hsep (Text.toList_eq_nil_iff.mp hnone)

end NameCatalog.Text
