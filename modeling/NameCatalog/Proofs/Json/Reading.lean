import NameCatalog.Json.Printer
import NameCatalog.Json.Reader
import NameCatalog.Proofs.Text.Surrogates

/-!
# Reading written JSON

The written form of a text is read back, whatever follows it. The one thing that does not come back
is a pair of surrogates: it is read as the character that the two stand for.
-/

namespace NameCatalog

namespace Json

open Text (isHighSurrogate isLowSurrogate joinPairs joinSurrogates isPair)

/-! ## Escapes -/

/-- The reader of a string between two characters, behind a high surrogate or not. -/
def resting : Option Nat → TextState
  | none => .text
  | some h => .afterHigh h

/-- What is read on from a state, behind some text that was read already. -/
def readBehind (added : List CodePoint) (state : TextState) (cs : List CodePoint) :
    Option (List CodePoint × List CodePoint) :=
  (readText state cs).map fun r => (added ++ r.1, r.2)

theorem readText_cons_of_step {state next : TextState} {c : CodePoint} {added : List CodePoint}
    (h : textStep state c = some (added, some next)) (cs : List CodePoint) :
    readText state (c :: cs) = readBehind added next cs := by
  rw [readText, h]
  rfl

@[simp] theorem readBehind_nil (state : TextState) (cs : List CodePoint) :
    readBehind [] state cs = readText state cs := by
  cases h : readText state cs <;> simp [readBehind, h]

theorem readText_backslash (high : Option Nat) (cs : List CodePoint) :
    readText (resting high) (.char '\\' :: cs) = readText (.escape high) cs := by
  cases high with
  | none => exact (readText_cons_of_step rfl cs).trans (readBehind_nil _ _)
  | some h => exact (readText_cons_of_step rfl cs).trans (readBehind_nil _ _)

theorem readText_raw (high : Option Nat) {c : CodePoint} (hquote : c ≠ '"') (hescape : c ≠ '\\')
    (hcontrol : 0x20 ≤ c.toNat) (cs : List CodePoint) :
    readText (resting high) (c :: cs) = readBehind (loneHigh high ++ [c]) .text cs := by
  have hplain : ¬ c.toNat < 0x20 := Nat.not_lt.mpr hcontrol
  cases high with
  | none =>
      refine readText_cons_of_step ?_ cs
      simp [resting, textStep, hquote, hescape, hplain, loneHigh]
  | some h =>
      refine readText_cons_of_step ?_ cs
      simp [resting, textStep, hquote, hescape, hplain, loneHigh]

theorem readText_simpleEscape (high : Option Nat) {c e : CodePoint}
    (h : simpleEscapes.lookup c = some e) (cs : List CodePoint) :
    readText (resting high) (.char '\\' :: c :: cs) =
      readBehind (loneHigh high ++ [e]) .text cs := by
  have hnone : simpleEscapes.lookup (.char 'u') = none := by
    decide
  have hcode : c ≠ 'u' := by
    rintro rfl
    rw [hnone] at h
    cases h
  rw [readText_backslash]
  exact readText_cons_of_step (by simp [textStep, hcode, h]) cs

/-- Four digits spell a code. -/
theorem readText_hexDigits (high : Option Nat) {n : Nat} (h : n < 0x10000) (cs : List CodePoint) :
    readText (.code high 4 0) (Text.hexDigits 4 n ++ cs) =
      readBehind (codeText high n).1 (codeText high n).2 cs := by
  have hdigit (m : Nat) : Text.hexValue? (Nat.digitChar (m % 16)) = some (m % 16) :=
    (Text.hexValue?_digitChar _ (Nat.mod_lt m (by decide))).1
  have hstep (remaining value m : Nat) :
      textStep (.code high (remaining + 2) value) (Nat.digitChar (m % 16)) =
        some ([], some (.code high (remaining + 1) (value * 16 + m % 16))) := by
    simp [textStep, hdigit]
  have hlast (value m : Nat) :
      textStep (.code high 1 value) (Nat.digitChar (m % 16)) =
        some ((codeText high (value * 16 + m % 16)).1,
          some (codeText high (value * 16 + m % 16)).2) := by
    simp [textStep, hdigit]
  have hvalue : (((0 * 16 + n / 16 / 16 / 16 % 16) * 16 + n / 16 / 16 % 16) * 16 +
      n / 16 % 16) * 16 + n % 16 = n := by
    omega
  simp only [Text.hexDigits, List.nil_append, List.cons_append]
  rw [readText_cons_of_step (hstep 2 _ _), readBehind_nil, readText_cons_of_step (hstep 1 _ _),
    readBehind_nil, readText_cons_of_step (hstep 0 _ _), readBehind_nil,
    readText_cons_of_step (hlast _ _), hvalue]

theorem readText_unitEscape (high : Option Nat) {n : Nat} (h : n < 0x10000) (cs : List CodePoint) :
    readText (resting high) (unitEscape n ++ cs) =
      readBehind (codeText high n).1 (codeText high n).2 cs := by
  have hcode : textStep (.escape high) 'u' = some ([], some (.code high 4 0)) := rfl
  rw [unitEscape, List.cons_append, List.cons_append, readText_backslash,
    readText_cons_of_step hcode, readBehind_nil, readText_hexDigits high h]

/-- The ways in which a character is written. -/
inductive Escaped (c : CodePoint) : List CodePoint → Prop
  | raw (hquote : c ≠ '"') (hescape : c ≠ '\\') (hcontrol : 0x20 ≤ c.toNat)
      (hascii : c.toNat < 0x7f) : Escaped c [c]
  | simple {e : CodePoint} (h : simpleEscapes.lookup e = some c) (hascii : c.toNat < 0x7f) :
      Escaped c ['\\', e]
  | unit (h : c.toNat < 0x10000) : Escaped c (unitEscape c.toNat)
  | pair (h : 0x10000 ≤ c.toNat) :
      Escaped c (unitEscape (0xd800 + (c.toNat - 0x10000) / 0x400) ++
        unitEscape (0xdc00 + (c.toNat - 0x10000) % 0x400))

theorem escaped_escapeChar (c : CodePoint) : Escaped c (escapeChar c) := by
  by_cases hquote : c = '"'
  · subst hquote
    exact .simple (e := '"') (by decide) (by decide)
  by_cases hescape : c = '\\'
  · subst hescape
    exact .simple (e := '\\') (by decide) (by decide)
  by_cases hfeed : c = '\n'
  · subst hfeed
    exact .simple (e := 'n') (by decide) (by decide)
  by_cases hreturn : c = '\r'
  · subst hreturn
    exact .simple (e := 'r') (by decide) (by decide)
  by_cases htab : c = '\t'
  · subst htab
    exact .simple (e := 't') (by decide) (by decide)
  by_cases hback : c = '\x08'
  · subst hback
    exact .simple (e := 'b') (by decide) (by decide)
  by_cases hform : c = '\x0c'
  · subst hform
    exact .simple (e := 'f') (by decide) (by decide)
  rw [escapeChar, if_neg hquote, if_neg hescape, if_neg hfeed, if_neg hreturn, if_neg htab,
    if_neg hback, if_neg hform]
  split
  · next h => exact .raw hquote hescape h.1 h.2
  · dsimp only
    split
    · next h => exact .unit h
    · next h => exact .pair (Nat.not_lt.mp h)

/-! ## Texts -/

/-- Behind a high surrogate or not, the written text is read as `cs` with its pairs joined, and
reading stops in front of `rest`. -/
def ReadsText (cs written rest : List CodePoint) : Prop :=
  ∀ high : Option Nat, (∀ n ∈ high, isHighSurrogate n = true) →
    readText (resting high) written = some (joinPairs (loneHigh high ++ cs), rest)

namespace ReadsText

variable {cs written rest : List CodePoint}

theorem close (rest : List CodePoint) : ReadsText [] (.char '"' :: rest) rest := by
  intro high _
  cases high with
  | none => rfl
  | some h => rfl

theorem behind (h : ReadsText cs written rest) (high : Option Nat)
    (hhigh : ∀ n ∈ high, isHighSurrogate n = true) (added : List CodePoint) :
    readBehind added (resting high) written =
      some (added ++ joinPairs (loneHigh high ++ cs), rest) := by
  rw [readBehind, h high hhigh]
  rfl

theorem joinPairs_behind (high : Option Nat) {c : CodePoint}
    (h : c.isSurrogate = false) (cs : List CodePoint) :
    joinPairs (loneHigh high ++ c :: cs) = loneHigh high ++ [c] ++ joinPairs cs := by
  rw [Text.joinPairs_append_cons _ h, List.append_assoc]
  cases high with
  | none => rfl
  | some n => rfl

theorem not_isSurrogate_of_lt {c : CodePoint} (h : c.toNat < 0x7f) :
    c.isSurrogate = false := by
  rw [Bool.eq_false_iff, ne_eq, CodePoint.isSurrogate_iff]
  omega

theorem raw (h : ReadsText cs written rest) {c : CodePoint} (hquote : c ≠ '"') (hescape : c ≠ '\\')
    (hcontrol : 0x20 ≤ c.toNat) (hascii : c.toNat < 0x7f) :
    ReadsText (c :: cs) (c :: written) rest := by
  intro high _
  rw [readText_raw high hquote hescape hcontrol,
    joinPairs_behind high (not_isSurrogate_of_lt hascii)]
  exact h.behind none nofun _

theorem simple (h : ReadsText cs written rest) {c e : CodePoint}
    (hescape : simpleEscapes.lookup e = some c) (hascii : c.toNat < 0x7f) :
    ReadsText (c :: cs) (.char '\\' :: e :: written) rest := by
  intro high _
  rw [readText_simpleEscape high hescape, joinPairs_behind high (not_isSurrogate_of_lt hascii)]
  exact h.behind none nofun _

theorem toNat_ofNat_high {n : Nat} (h : isHighSurrogate n = true) :
    (CodePoint.ofNat n).toNat = n := by
  simp only [isHighSurrogate, Bool.and_eq_true, decide_eq_true_eq] at h
  exact CodePoint.toNat_ofNat (by omega)

/-- A code adds what it settles; a high surrogate waits for what comes next. -/
theorem unit (h : ReadsText cs written rest) {c : CodePoint} (hcode : c.toNat < 0x10000) :
    ReadsText (c :: cs) (unitEscape c.toNat ++ written) rest := by
  intro high hhigh
  have hchar : CodePoint.ofNat c.toNat = c := CodePoint.ofNat_toNat c
  rw [readText_unitEscape high hcode]
  cases high with
  | none =>
      cases hc : isHighSurrogate c.toNat with
      | true =>
          have hread := h.behind (some c.toNat) (by simpa using hc) []
          simpa [codeText, resting, hc, loneHigh, hchar] using hread
      | false =>
          have hread := h.behind none nofun [c]
          simpa [codeText, resting, hc, loneHigh, hchar, Text.joinPairs_cons hc] using hread
  | some n =>
      have hn : isHighSurrogate n = true := hhigh n rfl
      have hfirst : (CodePoint.ofNat n).toNat = n := toNat_ofNat_high hn
      cases hlow : isLowSurrogate c.toNat with
      | true =>
          have hpair : isPair (CodePoint.ofNat n) c = true := by
            simp [isPair, hfirst, hn, hlow]
          have hread := h.behind none nofun [joinSurrogates n c.toNat]
          simpa [codeText, resting, hlow, loneHigh, hfirst,
            Text.joinPairs_cons_cons_of_isPair hpair] using hread
      | false =>
          have hpair : isPair (CodePoint.ofNat n) c = false := by
            simp [isPair, hlow]
          cases hc : isHighSurrogate c.toNat with
          | true =>
              have hread := h.behind (some c.toNat) (by simpa using hc) [CodePoint.ofNat n]
              simpa [codeText, resting, hlow, hc, loneHigh, hchar, Text.joinPairs_cons_cons hpair]
                using hread
          | false =>
              have hread := h.behind none nofun [CodePoint.ofNat n, c]
              simpa [codeText, resting, hlow, hc, loneHigh, hchar, Text.joinPairs_cons_cons hpair,
                Text.joinPairs_cons hc] using hread

/-- A character beyond the basic plane is written like the two surrogates that stand for it. -/
theorem pair (h : ReadsText cs written rest) {c : CodePoint} (hcode : 0x10000 ≤ c.toNat) :
    ReadsText (c :: cs) (unitEscape (0xd800 + (c.toNat - 0x10000) / 0x400) ++
      (unitEscape (0xdc00 + (c.toNat - 0x10000) % 0x400) ++ written)) rest := by
  have hlt := c.toNat_lt
  have hjoined := Text.joinSurrogates_split hcode
  generalize hhigh : 0xd800 + (c.toNat - 0x10000) / 0x400 = high at hjoined
  generalize hlow : 0xdc00 + (c.toNat - 0x10000) % 0x400 = low at hjoined
  have hhighKind : isHighSurrogate high = true := by
    simp only [isHighSurrogate, Bool.and_eq_true, decide_eq_true_eq]
    omega
  have hlowKind : isLowSurrogate low = true := by
    simp only [isLowSurrogate, Bool.and_eq_true, decide_eq_true_eq]
    omega
  have hfirst : (CodePoint.ofNat high).toNat = high := toNat_ofNat_high hhighKind
  have hsecond : (CodePoint.ofNat low).toNat = low := CodePoint.toNat_ofNat (by omega)
  have hpair : isPair (CodePoint.ofNat high) (CodePoint.ofNat low) = true := by
    simp [isPair, hfirst, hsecond, hhighKind, hlowKind]
  have hunit := h.unit (c := CodePoint.ofNat low) (by rw [hsecond]; omega)
  have hunits := hunit.unit (c := CodePoint.ofNat high) (by rw [hfirst]; omega)
  rw [hfirst, hsecond] at hunits
  have hplain : c.isSurrogate = false := by
    rw [Bool.eq_false_iff, ne_eq, CodePoint.isSurrogate_iff]
    omega
  intro n hn
  rw [hunits n hn, joinPairs_behind n hplain]
  cases n with
  | none => simp [loneHigh, Text.joinPairs_cons_cons_of_isPair hpair, hfirst, hsecond, hjoined]
  | some k =>
      have hlone : isPair (CodePoint.ofNat k) (CodePoint.ofNat high) = false := by
        simp only [isPair, hfirst, isLowSurrogate, Bool.and_eq_false_iff, decide_eq_false_iff_not]
        omega
      simp [loneHigh, Text.joinPairs_cons_cons hlone, Text.joinPairs_cons_cons_of_isPair hpair,
        hfirst, hsecond, hjoined]

theorem escaped (h : ReadsText cs written rest) (c : CodePoint) :
    ReadsText (c :: cs) (escapeChar c ++ written) rest := by
  have hc := escaped_escapeChar c
  generalize escapeChar c = word at hc
  cases hc with
  | raw hquote hescape hcontrol hascii => exact h.raw hquote hescape hcontrol hascii
  | simple hescape hascii => exact h.simple hescape hascii
  | unit hcode => exact h.unit hcode
  | pair hcode =>
      rw [List.append_assoc]
      exact h.pair hcode

theorem flatMap_escapeChar (cs rest : List CodePoint) :
    ReadsText cs (cs.flatMap escapeChar ++ .char '"' :: rest) rest := by
  induction cs with
  | nil => exact .close rest
  | cons c cs ih =>
      rw [List.flatMap_cons, List.append_assoc]
      exact ih.escaped c

end ReadsText

end Json

end NameCatalog
