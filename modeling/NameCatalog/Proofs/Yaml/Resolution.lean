import NameCatalog.Proofs.Yaml.Scanning
import NameCatalog.Yaml.Scalar

/-!
# Plain scalars fit their types

The type of a plain scalar is found from its text, so the text fits the type: a word for a truth
value is one, a timestamp has all its parts, and a number has a digit. What can still be wrong is a
number or a date out of range.
-/

namespace NameCatalog

namespace Text

theorem lowerChar_ne_nil (c : CodePoint) : lowerChar c ≠ [] := by
  have hexpansions : ∀ e ∈ lowerExpansions, e.2 ≠ [] := by decide
  unfold lowerChar mapCase
  split
  · exact List.cons_ne_nil _ _
  · split
    · next expansion hlookup =>
        obtain ⟨before, behind, hsplit, -⟩ := List.lookup_eq_some_iff.mp hlookup
        have hne := hexpansions (c.toNat, expansion) (by simp [hsplit])
        simpa using hne
    · split
      · exact List.cons_ne_nil _ _
      · exact List.cons_ne_nil _ _

theorem lowerFrom_ne_nil (before : Bool) {cs : List CodePoint} (h : cs ≠ []) :
    lowerFrom before cs ≠ [] := by
  cases cs with
  | nil => exact absurd rfl h
  | cons c cs =>
      rw [lowerFrom]
      refine List.append_ne_nil_of_left_ne_nil ?_ _
      split
      · exact List.cons_ne_nil _ _
      · exact lowerChar_ne_nil c

end Text

namespace Yaml

namespace Scalar

/-- A scalar step whose faults are ordinary. -/
abbrev Reads {α : Type} : Except Fault α → Prop := Ends Fault.Ordinary fun _ => True

theorem Reads.fmap {α : Type} {r : Except Fault α} (h : Reads r) (f : α → Value) :
    Reads (f <$> r) :=
  h.map fun _ _ => trivial

theorem reads_whole (base : Nat) (cs : List CodePoint) : Reads (whole base cs) := by
  unfold whole
  split
  · exact .ok trivial
  · exact .error (.inl rfl)
  · exact .error (.inl rfl)

theorem reads_magnitude {cs : List CodePoint} (h : cs ≠ []) : Reads (magnitude cs) := by
  unfold magnitude
  split
  · exact absurd rfl h
  · exact .ok trivial
  · exact reads_whole 2 _
  · exact reads_whole 16 _
  · exact reads_whole 8 _
  · refine Ends.ite (fun _ => ?_) (fun _ => reads_whole 10 _)
    exact (Ends.mapM fun group _ => reads_whole 10 group).bind fun _ _ => .ok trivial

theorem reads_fraction (cs : List CodePoint) : Reads (fraction cs) := by
  unfold fraction
  split
  · exact .ok trivial
  · exact .error (.inl rfl)

theorem reads_sumSixtieths (total : Decimal.Binary64) (power : Nat)
    (groups : List Decimal.Binary64) : Reads (sumSixtieths total power groups) := by
  induction groups generalizing total power with
  | nil => exact .ok trivial
  | cons x rest ih =>
      unfold sumSixtieths
      split
      · exact .error (.inr (.inr rfl))
      · exact ih _ _

theorem reads_signAndBody {cs : List CodePoint} (h : cs ≠ []) : Reads (signAndBody cs) := by
  cases cs with
  | nil => exact absurd rfl h
  | cons c cs => exact .ok trivial

theorem reads_real {s : Text} (h : withoutMarks s.toList ≠ []) : Reads (real s) := by
  have hlower : (Text.lowerCase (Text.ofList (withoutMarks s.toList))).toList ≠ [] := by
    rw [Text.lowerCase, Text.toList_ofList, Text.toList_ofList]
    exact Text.lowerFrom_ne_nil false h
  unfold real
  generalize Text.lowerCase (Text.ofList (withoutMarks s.toList)) = lower at hlower ⊢
  refine (reads_signAndBody hlower).bind ?_
  rintro ⟨negative, body⟩ -
  refine Ends.ite (fun _ => .ok trivial) (fun _ => ?_)
  refine Ends.ite (fun _ => .ok trivial) (fun _ => ?_)
  refine Ends.ite (fun _ => ?_) (fun _ => ?_)
  · refine (Ends.mapM fun group _ => reads_fraction group).bind fun groups _ => ?_
    exact (reads_sumSixtieths _ 1 groups.reverse).bind fun _ _ => .ok trivial
  · exact (reads_fraction body).bind fun _ _ => .ok trivial

theorem reads_calendar {α : Type} (r : Except Calendar.Fault α) : Reads (calendar r) := by
  unfold calendar
  split
  · exact .ok trivial
  · exact .error (.inl rfl)

end Scalar

/-- A scalar of the type has a value, or an ordinary fault. -/
def Tag.Fits (tag : Tag) (s : Text) : Prop := Scalar.Reads (Scalar.value tag s)

namespace Tag

open Scalar

theorem fits_text (s : Text) : Fits .text s := .ok trivial

/-! ## Whole numbers -/

theorem exists_digit_of_isInt {cs : List CodePoint} (h : isInt cs = true) :
    ∃ c rest, dropSign cs = c :: rest ∧ c.isDigit = true := by
  unfold isInt at h
  split at h
  · next hbody => exact ⟨_, _, hbody, by decide⟩
  · next rest hbody => exact ⟨_, _, hbody, by decide⟩
  · next rest hbody => exact ⟨_, _, hbody, by decide⟩
  · next rest _ _ _ hbody => exact ⟨_, _, hbody, by decide⟩
  · next c rest _ _ _ _ hbody =>
      simp only [Bool.and_eq_true] at h
      exact ⟨c, rest, hbody, h.1⟩
  · cases h

theorem digit_ne {c d : CodePoint} (hc : c.isDigit = true) (hd : d.isDigit = false) : c ≠ d := by
  rintro rfl
  rw [hc] at hd
  cases hd

/-- Marks are left out, but the first digit stays. -/
theorem signAndBody_withoutMarks {cs rest : List CodePoint} {c : CodePoint}
    (hbody : dropSign cs = c :: rest) (hc : c.isDigit = true) :
    ∃ negative, signAndBody (withoutMarks cs) = .ok (negative, c :: withoutMarks rest) := by
  have hmark : c ≠ '_' := digit_ne hc (by decide)
  have hkeep : withoutMarks (c :: rest) = c :: withoutMarks rest := by
    simp [withoutMarks, hmark]
  unfold dropSign at hbody
  split at hbody
  · next cs =>
      have hsign : withoutMarks (.char '+' :: cs) = .char '+' :: withoutMarks cs := by
        simp [withoutMarks]
      rw [hsign, hbody, hkeep]
      exact ⟨_, rfl⟩
  · next cs =>
      have hsign : withoutMarks (.char '-' :: cs) = .char '-' :: withoutMarks cs := by
        simp [withoutMarks]
      rw [hsign, hbody, hkeep]
      exact ⟨_, rfl⟩
  · have hplus : c ≠ '+' := digit_ne hc (by decide)
    have hminus : c ≠ '-' := digit_ne hc (by decide)
    rw [hbody, hkeep]
    exact ⟨false, by simp [signAndBody, hplus, hminus]⟩

theorem fits_int {s : Text} (h : isInt s.toList = true) : Fits .int s := by
  obtain ⟨c, rest, hbody, hc⟩ := exists_digit_of_isInt h
  obtain ⟨negative, hsign⟩ := signAndBody_withoutMarks hbody hc
  have hint : Reads (Scalar.int s) := by
    unfold Scalar.int
    rw [hsign]
    exact (reads_magnitude (List.cons_ne_nil _ _)).bind fun _ _ => .ok trivial
  exact hint.fmap .int

/-! ## Other numbers, and timestamps -/

theorem dropSign_subset (cs : List CodePoint) : ∀ c ∈ dropSign cs, c ∈ cs := by
  intro c hc
  unfold dropSign at hc
  split at hc
  · exact List.mem_cons_of_mem _ hc
  · exact List.mem_cons_of_mem _ hc
  · exact hc

/-- A number is never made of marks alone. -/
theorem withoutMarks_ne_nil_of_isReal {cs : List CodePoint} (h : isReal cs = true) :
    withoutMarks cs ≠ [] := by
  have hkept {c : CodePoint} (hc : c ∈ cs) (hmark : c ≠ '_') : withoutMarks cs ≠ [] :=
    List.ne_nil_of_mem (List.mem_filter.mpr ⟨hc, by simpa using hmark⟩)
  have hword {ds : List CodePoint} {words : List Text} (hds : ∀ c ∈ ds, c ∈ cs)
      (hwords : ∀ w ∈ words, .char '.' ∈ w.toList) (hmem : words.contains (Text.ofList ds) = true) :
      withoutMarks cs ≠ [] := by
    have hpoint := hwords _ (List.contains_iff_mem.mp hmem)
    rw [Text.toList_ofList] at hpoint
    exact hkept (hds '.' hpoint) (by decide)
  simp only [isReal, Bool.or_eq_true] at h
  rcases h with ((hinf | hnan) | hpoint) | hdigit
  · exact hword (dropSign_subset cs) (by decide) hinf
  · exact hword (fun _ hc => hc) (by decide) hnan
  · split at hpoint
    · exact hkept List.mem_cons_self (by decide)
    · cases hpoint
  · split at hdigit
    · next d rest hbody =>
        have hd : d ∈ cs := dropSign_subset cs d (by rw [hbody]; exact List.mem_cons_self)
        exact hkept hd (digit_ne (Bool.and_eq_true_iff.mp hdigit).1 (by decide))
    · cases hdigit

theorem fits_real {s : Text} (h : isReal s.toList = true) : Fits .real s := by
  simp only [Fits, Scalar.value]
  exact (reads_real (withoutMarks_ne_nil_of_isReal h)).fmap .real

theorem dropLineFeed_eq_self {cs : List CodePoint} (h : cs.getLast? ≠ some (.char '\n')) :
    dropLineFeed cs = cs := by
  unfold dropLineFeed
  split
  · next rest hreverse =>
      rw [← List.head?_reverse, hreverse] at h
      exact absurd rfl h
  · rfl

theorem fits_timestamp {s : Text} (h : isTimestamp s.toList = true)
    (hlast : s.toList.getLast? ≠ some (.char '\n')) : Fits .timestamp s := by
  change Reads (Scalar.timestamp s)
  unfold Scalar.timestamp
  rw [dropLineFeed_eq_self hlast]
  unfold isTimestamp at h
  split
  · next hnone =>
      rw [hnone] at h
      cases h
  · next t _ =>
      simp only
      cases t.time with
      | none => exact (reads_calendar _).bind fun _ _ => .ok trivial
      | some u => exact (reads_calendar _).bind fun _ _ => .ok trivial

/-! ## All plain scalars -/

theorem reads_bool {s : Text} (h : s ∈ trueWords ++ falseWords) : Reads (Scalar.bool s) := by
  have hall : ∀ w ∈ trueWords ++ falseWords, (Scalar.bool w).toOption.isSome = true := by
    decide
  have hsome := hall s h
  cases hbool : Scalar.bool s with
  | ok b => exact .ok trivial
  | error f =>
      rw [hbool] at hsome
      cases hsome

theorem fits_ofWord {s : Text} (h : s.toList.getLast? ≠ some (.char '\n')) : (ofWord s).Fits s := by
  have hrefused {tag : Tag} (htag : Scalar.value tag s = .error .invalid) : tag.Fits s := by
    unfold Fits
    rw [htag]
    exact ends_invalid
  unfold ofWord
  split
  · exact .ok trivial
  · split
    · next hword =>
        have hmem : s ∈ trueWords ++ falseWords := by
          simpa [List.mem_append] using hword
        exact (reads_bool hmem).fmap .bool
    · split
      · exact hrefused rfl
      · split
        · exact hrefused rfl
        · split
          · exact hrefused rfl
          · simp only
            split
            · next hreal => exact fits_real hreal
            · split
              · next hint => exact fits_int hint
              · split
                · next htime => exact fits_timestamp htime h
                · exact fits_text s

/-- The text of a plain scalar fits the type that is found for it. -/
theorem fits_ofPlain {s : Text} (h : s.toList.getLast? ≠ some (.char '\n')) :
    (ofPlain s).Fits s := by
  have hword : ofPlain s = ofWord s := by
    rw [← List.head?_reverse] at h
    unfold ofPlain
    split
    · next hreverse => rw [hreverse] at h; exact absurd rfl h
    · next hreverse => rw [hreverse] at h; exact absurd rfl h
    · rfl
  rw [hword]
  exact fits_ofWord h

end Tag

end Yaml

end NameCatalog
