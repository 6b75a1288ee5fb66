import NameCatalog.Proofs.Text.Splitting
import NameCatalog.Text.Surrogate
import NameCatalog.Text.Utf8

/-!
# Surrogates in a row

Text can hold a high surrogate directly in front of a low one. When both are written by their codes,
they cannot be told from the one character beyond the basic plane that they stand for together.
`joinPairs` puts that character in their place; it changes no other text.
-/

namespace NameCatalog.Text

/-- The two surrogates of a character beyond the basic plane stand for it. -/
theorem joinSurrogates_split {c : CodePoint} (h : 0x10000 ≤ c.toNat) :
    joinSurrogates (0xd800 + (c.toNat - 0x10000) / 0x400)
      (0xdc00 + (c.toNat - 0x10000) % 0x400) = c := by
  have hsum : 0x10000 + (0xd800 + (c.toNat - 0x10000) / 0x400 - 0xd800) * 0x400 +
      (0xdc00 + (c.toNat - 0x10000) % 0x400 - 0xdc00) = c.toNat := by
    omega
  rw [joinSurrogates, hsum, CodePoint.ofNat_toNat]

/-! ## Pairs -/

def isPair (c d : CodePoint) : Bool :=
  isHighSurrogate c.toNat && isLowSurrogate d.toNat

def joinPairs : List CodePoint → List CodePoint
  | [] => []
  | [c] => [c]
  | c :: d :: cs =>
    if isPair c d then joinSurrogates c.toNat d.toNat :: joinPairs cs
    else c :: joinPairs (d :: cs)

def withPairsJoined (s : Text) : Text := Text.ofList (joinPairs s.toList)

/-- No high surrogate stands directly in front of a low one. -/
def PairFree (cs : List CodePoint) : Prop := cs.IsChain fun c d => isPair c d = false

instance (cs : List CodePoint) : Decidable (PairFree cs) :=
  inferInstanceAs (Decidable (cs.IsChain _))

@[simp] theorem joinPairs_nil : joinPairs [] = [] := rfl

theorem joinPairs_cons_cons_of_isPair {c d : CodePoint} (h : isPair c d = true)
    (cs : List CodePoint) :
    joinPairs (c :: d :: cs) = joinSurrogates c.toNat d.toNat :: joinPairs cs := by
  rw [joinPairs, if_pos h]

theorem joinPairs_cons_cons {c d : CodePoint} (h : isPair c d = false) (cs : List CodePoint) :
    joinPairs (c :: d :: cs) = c :: joinPairs (d :: cs) := by
  rw [joinPairs, if_neg (by simp [h])]

/-- A character that is no high surrogate is left alone, whatever follows it. -/
theorem joinPairs_cons {c : CodePoint} (h : isHighSurrogate c.toNat = false) (cs : List CodePoint) :
    joinPairs (c :: cs) = c :: joinPairs cs := by
  cases cs with
  | nil => rfl
  | cons d cs => exact joinPairs_cons_cons (by simp [isPair, h]) cs

theorem isHighSurrogate_toNat {c : CodePoint} (h : c.isSurrogate = false) :
    isHighSurrogate c.toNat = false := by
  rw [← Bool.not_eq_true, CodePoint.isSurrogate_iff] at h
  simp only [isHighSurrogate, Bool.and_eq_false_iff, decide_eq_false_iff_not]
  omega

theorem isLowSurrogate_toNat {c : CodePoint} (h : c.isSurrogate = false) :
    isLowSurrogate c.toNat = false := by
  rw [← Bool.not_eq_true, CodePoint.isSurrogate_iff] at h
  simp only [isLowSurrogate, Bool.and_eq_false_iff, decide_eq_false_iff_not]
  omega

theorem length_joinPairs_le (cs : List CodePoint) : (joinPairs cs).length ≤ cs.length := by
  fun_induction joinPairs cs with
  | case1 => exact Nat.le_refl _
  | case2 => exact Nat.le_refl _
  | case3 c d cs _ ih =>
      simp only [List.length_cons]
      omega
  | case4 c d cs _ ih =>
      simp only [List.length_cons] at ih ⊢
      omega

theorem joinPairs_eq_self_iff {cs : List CodePoint} : joinPairs cs = cs ↔ PairFree cs := by
  fun_induction joinPairs cs with
  | case1 => simp [PairFree]
  | case2 => simp [PairFree]
  | case3 c d cs hpair ih =>
      -- a pair that is joined makes the text shorter
      have hlength := length_joinPairs_le cs
      constructor
      · intro h
        have hsame := congrArg List.length h
        simp only [List.length_cons] at hsame
        omega
      · intro h
        have hfirst := (List.isChain_cons_cons.mp h).1
        rw [hpair] at hfirst
        cases hfirst
  | case4 c d cs hpair ih =>
      simp only [PairFree, List.isChain_cons_cons, List.cons.injEq, true_and]
      rw [ih]
      simp [PairFree, hpair]

theorem pairFree_of_not_high {cs : List CodePoint}
    (h : ∀ c ∈ cs, isHighSurrogate c.toNat = false) : PairFree cs := by
  rw [← joinPairs_eq_self_iff]
  induction cs with
  | nil => rfl
  | cons c cs ih =>
      obtain ⟨hc, hcs⟩ := List.forall_mem_cons.mp h
      rw [joinPairs_cons hc, ih hcs]

/-- Bytes that are no text are held as low surrogates only. -/
theorem isHighSurrogate_of_mem_decodeEscapingFrom {skipped : Nat} {bytes : List UInt8}
    {c : CodePoint} (h : c ∈ Utf8.decodeEscapingFrom skipped bytes) :
    isHighSurrogate c.toNat = false := by
  fun_induction Utf8.decodeEscapingFrom skipped bytes with
  | case1 => cases h
  | case2 skipped b rest ih => exact ih h
  | case3 b rest d n hchar ih =>
      rcases List.mem_cons.mp h with rfl | hrest
      · exact isHighSurrogate_toNat rfl
      · exact ih hrest
  | case4 b rest hnone ih =>
      rcases List.mem_cons.mp h with rfl | hrest
      · have hlow : 0xdc00 ≤ (Utf8.surrogateOf b).toNat := by
          simp only [Utf8.surrogateOf, CodePoint.toNat, CodePoint.firstSurrogate]
          omega
        rw [isHighSurrogate, Bool.and_eq_false_iff, decide_eq_false_iff_not,
          decide_eq_false_iff_not]
        omega
      · exact ih hrest

/-- No pair stands in the words that the system hands over. -/
theorem pairFree_decodeEscaping (bytes : List UInt8) : PairFree (Utf8.decodeEscaping bytes) :=
  pairFree_of_not_high fun _ h => isHighSurrogate_of_mem_decodeEscapingFrom h

/-- Texts can be joined on their own where a character between them is no surrogate. -/
theorem joinPairs_append_cons (cs : List CodePoint) {sep : CodePoint}
    (h : sep.isSurrogate = false) (ds : List CodePoint) :
    joinPairs (cs ++ sep :: ds) = joinPairs cs ++ sep :: joinPairs ds := by
  have hhigh := isHighSurrogate_toNat h
  have hlow := isLowSurrogate_toNat h
  fun_induction joinPairs cs with
  | case1 => exact joinPairs_cons hhigh ds
  | case2 c =>
      rw [List.singleton_append, joinPairs_cons_cons (by simp [isPair, hlow]),
        joinPairs_cons hhigh, List.singleton_append]
  | case3 c d cs hpair ih =>
      rw [List.cons_append, List.cons_append, joinPairs_cons_cons_of_isPair hpair, ih,
        List.cons_append]
  | case4 c d cs hpair ih =>
      rw [List.cons_append, List.cons_append, joinPairs_cons_cons (by simpa using hpair),
        ← List.cons_append, ih, List.cons_append]

theorem joinPairs_joinWith {sep : CodePoint} (h : sep.isSurrogate = false)
    (ps : List (List CodePoint)) :
    joinPairs (joinWith [sep] ps) = joinWith [sep] (ps.map joinPairs) := by
  induction ps with
  | nil => rfl
  | cons piece rest ih =>
      cases rest with
      | nil => rfl
      | cons next rest =>
          rw [joinWith_cons (List.cons_ne_nil next rest), List.append_assoc, List.singleton_append,
            joinPairs_append_cons piece h, ih]
          simp [joinWith]

theorem le_toNat_of_isPair {c d : CodePoint} (h : isPair c d = true) :
    0x10000 ≤ (joinSurrogates c.toNat d.toNat).toNat := by
  simp only [isPair, isHighSurrogate, isLowSurrogate, Bool.and_eq_true, decide_eq_true_eq] at h
  rw [joinSurrogates, CodePoint.toNat_ofNat (by omega)]
  omega

/-- Joining adds only characters beyond the basic plane. -/
theorem not_mem_joinPairs {sep : CodePoint} (h : sep.toNat < 0x10000) {cs : List CodePoint}
    (hsep : sep ∉ cs) : sep ∉ joinPairs cs := by
  fun_induction joinPairs cs with
  | case1 => exact hsep
  | case2 => exact hsep
  | case3 c d cs hpair ih =>
      simp only [List.mem_cons, not_or] at hsep ⊢
      refine ⟨?_, ih hsep.2.2⟩
      intro hsame
      have hplane := le_toNat_of_isPair hpair
      rw [← hsame] at hplane
      omega
  | case4 c d cs hpair ih =>
      simp only [List.mem_cons, not_or] at hsep ⊢
      exact ⟨hsep.1, ih (by simp [hsep.2])⟩

end NameCatalog.Text
