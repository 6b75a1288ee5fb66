import Mathlib
import NameCatalog.Text.LetterCase

/-!
# Lowering to plain letters

A plain text is the small form of its ASCII spellings only. Of the characters above ASCII just the
kelvin sign becomes an ASCII letter and nothing else, so that only the letter `k` is not plain.
-/

namespace NameCatalog.Text

/-- An ASCII character that no character above ASCII is lowered to. -/
def isPlain (c : CodePoint) : Bool :=
  decide (0 < c.toNat) && decide (c.toNat < 0x80) && c != 'k'

theorem isPlain_iff {c : CodePoint} :
    isPlain c = true ↔ 0 < c.toNat ∧ c.toNat < 0x80 ∧ c ≠ 'k' := by
  simp [isPlain, and_assoc]

theorem not_isPlain_of_le {c : CodePoint} (h : 0x80 ≤ c.toNat) : isPlain c = false := by
  rw [Bool.eq_false_iff, ne_eq, isPlain_iff]
  omega

theorem toLower_of_le {c : CodePoint} (h : 0x80 ≤ c.toNat) : c.toLower = c := by
  cases c with
  | char c =>
      have hlast : 'Z'.val.toNat = 90 := rfl
      have hcode : 0x80 ≤ c.val.toNat := h
      rw [CodePoint.toLower_char, Char.toLower_eq_of_not_isUpper]
      simp only [Char.isUpper, UInt32.le_iff_toNat_le, ge_iff_le, decide_eq_true_eq]
      omega
  | surrogate n => rfl

/-- A number of no code point gives the null character. -/
theorem toNat_ofNat_eq_or (n : Nat) :
    (CodePoint.ofNat n).toNat = n ∨ (CodePoint.ofNat n).toNat = 0 := by
  by_cases h : n < 0x110000
  · exact .inl (CodePoint.toNat_ofNat h)
  · have hvalid : ¬ n.isValidChar := by
      simp only [Nat.isValidChar]
      omega
    rw [CodePoint.ofNat, dif_neg (by simp only [CodePoint.firstSurrogate]; omega),
      CodePoint.toNat_char, Char.toNat_ofNat, if_neg hvalid]
    exact .inr rfl

/-- A run of small forms above ASCII stays there, but for that of the kelvin sign. -/
theorem lowerRuns_above_ascii :
    ∀ r ∈ lowerRuns, 0x80 ≤ (r.first : Int) + r.shift ∨
      r.first = 0x212a ∧ r.last = 0x212a ∧ r.shift = -8383 := by
  decide +kernel

theorem not_isPlain_apply {r : CaseRun} {n : Nat} (hr : r ∈ lowerRuns) (hn : r.contains n = true) :
    isPlain (r.apply n) = false := by
  simp only [CaseRun.contains, Bool.and_eq_true, decide_eq_true_eq] at hn
  obtain ⟨⟨hfirst, hlast⟩, -⟩ := hn
  rcases lowerRuns_above_ascii r hr with habove | ⟨hf, hl, hshift⟩
  · -- the null character is not plain either
    have hcode := toNat_ofNat_eq_or (n + r.shift).toNat
    rw [Bool.eq_false_iff, ne_eq, isPlain_iff, CaseRun.apply]
    omega
  · obtain rfl : n = 0x212a := by omega
    rw [CaseRun.apply, hshift]
    decide

theorem exists_not_isPlain {c : CodePoint} (h : 0x80 ≤ c.toNat) :
    ∃ d ∈ lowerChar c, isPlain d = false := by
  rw [lowerChar, if_neg (Nat.not_lt.mpr h), mapCase]
  split
  · next expansion hexpansion =>
      obtain ⟨before, after, hsplit, -⟩ := List.lookup_eq_some_iff.mp hexpansion
      have hmem : (c.toNat, expansion) ∈ lowerExpansions := by
        rw [hsplit]
        exact List.mem_append_right before List.mem_cons_self
      obtain ⟨-, rfl⟩ := Prod.mk.inj (List.mem_singleton.mp hmem)
      exact ⟨'\u0307', by decide, by decide⟩
  · split
    · next r hrun =>
        have hcontains := List.find?_some hrun
        exact ⟨_, List.mem_singleton.mpr rfl,
          not_isPlain_apply (List.mem_of_find?_eq_some hrun) hcontains⟩
    · exact ⟨c, List.mem_singleton.mpr rfl, not_isPlain_of_le h⟩

theorem not_isPlain_smallSigma (before : Bool) (cs : List CodePoint) :
    isPlain (smallSigma before cs) = false := by
  unfold smallSigma
  split
  · decide
  · decide

theorem lowerFrom_eq_iff {before : Bool} {cs ts : List CodePoint} (h : ∀ t ∈ ts, isPlain t = true) :
    lowerFrom before cs = ts ↔ cs.map CodePoint.toLower = ts := by
  induction cs generalizing before ts with
  | nil => exact Iff.rfl
  | cons c cs ih =>
      rw [lowerFrom, List.map_cons]
      by_cases hc : c.toNat < 0x80
      · have hsigma : c ≠ 'Σ' := by
          rintro rfl
          exact absurd hc (by decide)
        rw [if_neg hsigma, lowerChar, if_pos hc, List.singleton_append]
        cases ts with
        | nil => simp
        | cons t ts => rw [List.cons_eq_cons, List.cons_eq_cons, ih (List.forall_mem_cons.mp h).2]
      · -- what becomes of the character is not plain, and neither is the character itself
        have habove : 0x80 ≤ c.toNat := Nat.not_lt.mp hc
        obtain ⟨d, hd, hplain⟩ : ∃ d ∈ if c = 'Σ' then [smallSigma before cs] else lowerChar c,
            isPlain d = false := by
          split
          · exact ⟨_, List.mem_singleton.mpr rfl, not_isPlain_smallSigma before cs⟩
          · exact exists_not_isPlain habove
        constructor
        · rintro rfl
          rw [h d (List.mem_append_left _ hd)] at hplain
          cases hplain
        · rintro rfl
          have hsmall := h c.toLower List.mem_cons_self
          rw [toLower_of_le habove, not_isPlain_of_le habove] at hsmall
          cases hsmall

/-- A plain text has no other spellings than those in ASCII letters. -/
theorem lowerCase_eq_iff {s t : Text} (h : ∀ c ∈ t.toList, isPlain c = true) :
    lowerCase s = t ↔ s.toList.map CodePoint.toLower = t.toList := by
  rw [lowerCase, ← Text.toList_inj, Text.toList_ofList, lowerFrom_eq_iff h]

example : lowerCase "\u212aey" = "key" := by decide

end NameCatalog.Text
