import NameCatalog.Proofs.Text.Splitting
import NameCatalog.Proofs.Text.Surrogates
import NameCatalog.Text.Quoted

/-!
# Quoted text is read back

Quoted text is printable throughout, and no quoted text begins another one: where it ends and what
it quotes can be told whatever follows. The same holds of rows of such texts.
-/

namespace NameCatalog.Text

/-! ## Printable text -/

/-- There are no controls in such a text and no line breaks: it is a single line. -/
def Printable (cs : List CodePoint) : Prop := ∀ c ∈ cs, isPrintable c = true

instance (cs : List CodePoint) : Decidable (Printable cs) :=
  List.decidableBAll (fun c : CodePoint => isPrintable c = true) cs

theorem printable_append {cs ds : List CodePoint} :
    Printable (cs ++ ds) ↔ Printable cs ∧ Printable ds :=
  List.forall_mem_append

theorem printable_cons {c : CodePoint} {cs : List CodePoint} :
    Printable (c :: cs) ↔ isPrintable c = true ∧ Printable cs :=
  List.forall_mem_cons

/-- The characters that end a line. -/
def lineBreaks : List CodePoint :=
  ['\n', '\r', '\x0b', '\x0c', '\x1c', '\x1d', '\x1e', '\x85', '\u2028', '\u2029']

theorem Printable.no_lineBreak {cs : List CodePoint} (h : Printable cs) :
    ∀ c ∈ lineBreaks, c ∉ cs := by
  intro c hc hmem
  have hbreak := List.all_eq_true.mp isPrintable_line_breaks c hc
  rw [h c hmem] at hbreak
  cases hbreak

/-! ## Codes without a word that begins another -/

section PrefixFree

variable {α : Type} {f : α → List CodePoint} {stop : CodePoint}

/-- No word begins another: each is told by the front of a text, whatever follows it. -/
def PrefixFree (f : α → List CodePoint) : Prop := ∀ ⦃a b : α⦄, f a <+: f b → a = b

/-- The words begin with other characters than `stop`, and none is empty. -/
def Avoids (f : α → List CodePoint) (stop : CodePoint) : Prop :=
  ∀ a, ∃ c word, f a = c :: word ∧ c ≠ stop

theorem Avoids.not_prefix (h : Avoids f stop) {a : α} {ys : List CodePoint} :
    ¬ f a <+: stop :: ys := by
  obtain ⟨c, word, hword, hc⟩ := h a
  rw [hword]
  exact fun hprefix => hc (List.cons_prefix_cons.mp hprefix).1

theorem Avoids.not_begins (h : Avoids f stop) {a : α} {xs ys : List CodePoint} :
    ¬ stop :: xs <+: f a ++ ys := by
  obtain ⟨c, word, hword, hc⟩ := h a
  rw [hword]
  exact fun hprefix => hc (List.cons_prefix_cons.mp hprefix).1.symm

/-- Words one behind the other, up to a character that begins none of them. -/
def row (f : α → List CodePoint) (stop : CodePoint) (as : List α) : List CodePoint :=
  as.flatMap f ++ [stop]

theorem row_cons (f : α → List CodePoint) (stop : CodePoint) (a : α) (as : List α) :
    row f stop (a :: as) = f a ++ row f stop as := by
  rw [row, List.flatMap_cons, List.append_assoc, row]

theorem prefixFree_of_reads {read : List CodePoint → Option (α × List CodePoint)}
    (h : ∀ a rest, read (f a ++ rest) = some (a, rest)) : PrefixFree f := by
  rintro a b ⟨rest, hrest⟩
  have hread := h b []
  rw [List.append_nil, ← hrest, h a rest] at hread
  exact congrArg Prod.fst (Option.some.inj hread)

namespace PrefixFree

theorem append_inj (hf : PrefixFree f) {a b : α} {xs ys : List CodePoint}
    (h : f a ++ xs = f b ++ ys) : a = b ∧ xs = ys := by
  have hab : a = b := by
    rcases List.prefix_or_prefix_of_prefix (List.prefix_append (f a) xs)
      (h ▸ List.prefix_append (f b) ys) with hprefix | hprefix
    · exact hf hprefix
    · exact (hf hprefix).symm
  subst hab
  exact ⟨rfl, List.append_cancel_left h⟩

theorem append_prefix (hf : PrefixFree f) {a b : α} {xs ys : List CodePoint}
    (h : f a ++ xs <+: f b ++ ys) : a = b ∧ xs <+: ys := by
  obtain ⟨rest, hrest⟩ := h
  rw [List.append_assoc] at hrest
  obtain ⟨hab, htail⟩ := hf.append_inj hrest
  exact ⟨hab, rest, htail⟩

theorem behind (hf : PrefixFree f) (front : List CodePoint) : PrefixFree fun a => front ++ f a := by
  intro a b h
  exact hf ((List.prefix_append_right_inj front).mp h)

theorem row (hf : PrefixFree f) (hstop : Avoids f stop) : PrefixFree (row f stop) := by
  intro as
  induction as with
  | nil =>
      intro bs h
      cases bs with
      | nil => rfl
      | cons b bs => exact absurd (row_cons .. ▸ h) hstop.not_begins
  | cons a as ih =>
      intro bs h
      cases bs with
      | nil =>
          rw [row_cons] at h
          exact absurd ((List.prefix_append _ _).trans h) hstop.not_prefix
      | cons b bs =>
          rw [row_cons, row_cons] at h
          obtain ⟨rfl, htail⟩ := hf.append_prefix h
          rw [ih htail]

end PrefixFree

/-- A row whose first word is set apart from the others. -/
def listed (f : α → List CodePoint) (stop : CodePoint) (others : List α → List CodePoint) :
    List α → List CodePoint
  | [] => [stop]
  | a :: as => f a ++ others as

theorem PrefixFree.listed (hf : PrefixFree f) (hstop : Avoids f stop)
    {others : List α → List CodePoint} (hothers : PrefixFree others) :
    PrefixFree (listed f stop others) := by
  intro as bs h
  cases as with
  | nil =>
      cases bs with
      | nil => rfl
      | cons b bs => exact absurd h hstop.not_begins
  | cons a as =>
      cases bs with
      | nil => exact absurd ((List.prefix_append _ _).trans h) hstop.not_prefix
      | cons b bs =>
          obtain ⟨rfl, htail⟩ := hf.append_prefix h
          rw [hothers htail]

end PrefixFree

/-! ## Hexadecimal digits -/

theorem takeHex_add (width more value : Nat) (cs : List CodePoint) :
    takeHex (width + more) value cs =
      (takeHex width value cs).bind fun r => takeHex more r.1 r.2 := by
  induction width generalizing value cs with
  | zero => rw [Nat.zero_add, takeHex, Option.bind_some]
  | succ width ih =>
      rw [Nat.succ_add]
      cases cs with
      | nil => rfl
      | cons c cs =>
          simp only [takeHex]
          cases hexValue? c with
          | none => rfl
          | some d => exact ih (value * 16 + d) cs

theorem takeHex_hexDigits {width n : Nat} (h : n < Nat.pow 16 width) (value : Nat)
    (cs : List CodePoint) :
    takeHex width value (hexDigits width n ++ cs) = some (value * Nat.pow 16 width + n, cs) := by
  induction width generalizing n cs with
  | zero =>
      have hn : n = 0 := Nat.lt_one_iff.mp h
      subst hn
      simp [hexDigits, takeHex]
  | succ width ih =>
      have hdiv : n / 16 < Nat.pow 16 width := Nat.div_lt_of_lt_mul (by rwa [Nat.mul_comm])
      have hdigit := (hexValue?_digitChar (n % 16) (Nat.mod_lt n (by decide))).1
      have hvalue : (value * Nat.pow 16 width + n / 16) * 16 + n % 16 =
          value * Nat.pow 16 (width + 1) + n := by
        have hpow : value * Nat.pow 16 (width + 1) = value * Nat.pow 16 width * 16 :=
          (Nat.mul_assoc _ _ _).symm
        omega
      have hlast (m : Nat) :
          takeHex 1 m (Nat.digitChar (n % 16) :: cs) = some (m * 16 + n % 16, cs) := by
        rw [takeHex, hdigit]
        rfl
      rw [hexDigits, List.append_assoc, takeHex_add, ih hdiv, Option.bind_some,
        List.singleton_append, hlast, hvalue]

theorem printable_hexDigits (width n : Nat) : Printable (hexDigits width n) := by
  have hdigits : ∀ d < 16, isPrintable (Nat.digitChar d) = true := by
    decide
  induction width generalizing n with
  | zero => exact List.forall_mem_nil _
  | succ width ih =>
      have hlast := hdigits (n % 16) (Nat.mod_lt n (by decide))
      exact printable_append.mpr ⟨ih (n / 16), printable_cons.mpr ⟨hlast, List.forall_mem_nil _⟩⟩

/-! ## Escapes -/

def quotes : List CodePoint := [.char '\x27', .char '"']

theorem quoteFor_mem_quotes (cs : List CodePoint) : quoteFor cs ∈ quotes := by
  unfold quoteFor
  split
  · decide
  · decide

/-- Letters that stand for a character behind a backslash. -/
def letterEscapes : List (CodePoint × CodePoint) := [('n', '\n'), ('r', '\r'), ('t', '\t')]

/-- How many digits of a code stand behind a backslash and a letter. -/
def codeWidth? (e : CodePoint) : Option Nat :=
  if e = 'x' then some 2 else if e = 'u' then some 4 else if e = 'U' then some 8 else none

def unescapeBehind : List CodePoint → Option (CodePoint × List CodePoint)
  | [] => none
  | e :: cs =>
    match codeWidth? e with
    | some width => (takeHex width 0 cs).map fun r => (CodePoint.ofNat r.1, r.2)
    | none => some ((letterEscapes.lookup e).getD e, cs)

/-- The first character of escaped text, and what follows its escape. -/
def unescape : List CodePoint → Option (CodePoint × List CodePoint)
  | [] => none
  | c :: cs => if c = '\\' then unescapeBehind cs else some (c, cs)

/-- The ways in which a character is written between quotes. -/
inductive Escaped (quote c : CodePoint) : List CodePoint → Prop
  | marked (h : c = quote ∨ c = '\\') : Escaped quote c ['\\', c]
  | letter {e : CodePoint} (h : (e, c) ∈ letterEscapes) : Escaped quote c ['\\', e]
  | plain (hquote : c ≠ quote) (hescape : c ≠ '\\') (hprintable : isPrintable c = true) :
      Escaped quote c [c]
  | code : Escaped quote c (escapeCode c.toNat)

theorem escaped_escapeChar (quote c : CodePoint) : Escaped quote c (escapeChar quote c) := by
  by_cases hmark : c = quote ∨ c = '\\'
  · rw [escapeChar, if_pos hmark]
    exact .marked hmark
  by_cases hfeed : c = '\n'
  · rw [escapeChar, if_neg hmark, if_pos hfeed]
    exact .letter (by simp [letterEscapes, hfeed])
  by_cases hreturn : c = '\r'
  · rw [escapeChar, if_neg hmark, if_neg hfeed, if_pos hreturn]
    exact .letter (by simp [letterEscapes, hreturn])
  by_cases htab : c = '\t'
  · rw [escapeChar, if_neg hmark, if_neg hfeed, if_neg hreturn, if_pos htab]
    exact .letter (by simp [letterEscapes, htab])
  rw [escapeChar, if_neg hmark, if_neg hfeed, if_neg hreturn, if_neg htab]
  obtain ⟨hquote, hescape⟩ := not_or.mp hmark
  split
  · next hprintable => exact .plain hquote hescape hprintable
  · exact .code

theorem escapeCode_eq (n : Nat) :
    ∃ e width, escapeCode n = .char '\\' :: e :: hexDigits width n ∧ isPrintable e = true ∧
      codeWidth? e = some width ∧ (n < 0x110000 → n < Nat.pow 16 width) := by
  unfold escapeCode
  split
  · next h => exact ⟨'x', 2, rfl, by decide, rfl, fun _ => h⟩
  · split
    · next h => exact ⟨'u', 4, rfl, by decide, rfl, fun _ => h⟩
    · exact ⟨'U', 8, rfl, by decide, rfl, fun h => Nat.lt_trans h (by decide)⟩

namespace Escaped

variable {quote c : CodePoint} {word : List CodePoint}

theorem unescape_append (hquote : quote ∈ quotes) (h : Escaped quote c word) (cs : List CodePoint) :
    unescape (word ++ cs) = some (c, cs) := by
  cases h with
  | marked h =>
      -- Neither a quote nor the backslash is a letter that stands for something else.
      have hc : c ∈ .char '\\' :: quotes := by
        rcases h with rfl | rfl
        · exact List.mem_cons_of_mem _ hquote
        · exact List.mem_cons_self
      simp only [quotes, List.mem_cons, List.not_mem_nil, or_false] at hc
      rcases hc with rfl | rfl | rfl
      · rfl
      · rfl
      · rfl
  | letter h =>
      simp only [letterEscapes, List.mem_cons, Prod.mk.injEq, List.not_mem_nil, or_false] at h
      rcases h with ⟨rfl, rfl⟩ | ⟨rfl, rfl⟩ | ⟨rfl, rfl⟩
      · rfl
      · rfl
      · rfl
  | plain _ hescape _ => exact if_neg hescape
  | code =>
      obtain ⟨e, width, hcode, -, hwidth, hlt⟩ := escapeCode_eq c.toNat
      have hread := takeHex_hexDigits (hlt (c.toNat_lt)) 0 cs
      have hbehind : unescapeBehind (e :: (hexDigits width c.toNat ++ cs)) =
          some (CodePoint.ofNat (0 * Nat.pow 16 width + c.toNat), cs) := by
        simp only [unescapeBehind, hwidth, hread]
        rfl
      rw [Nat.zero_mul, Nat.zero_add, CodePoint.ofNat_toNat] at hbehind
      rw [hcode]
      exact hbehind

theorem printable (hquote : quote ∈ quotes) (h : Escaped quote c word) : Printable word := by
  have hquotes : Printable (.char '\\' :: quotes) := by
    decide
  cases h with
  | marked h =>
      have hc : isPrintable c = true := by
        rcases h with rfl | rfl
        · exact hquotes c (List.mem_cons_of_mem _ hquote)
        · exact hquotes '\\' List.mem_cons_self
      exact printable_cons.mpr ⟨by decide, printable_cons.mpr ⟨hc, List.forall_mem_nil _⟩⟩
  | letter h =>
      have hletters : ∀ p ∈ letterEscapes, Printable ['\\', p.1] := by
        decide
      exact hletters _ h
  | plain _ _ hprintable => exact printable_cons.mpr ⟨hprintable, List.forall_mem_nil _⟩
  | code =>
      obtain ⟨e, width, hcode, he, -⟩ := escapeCode_eq c.toNat
      rw [hcode]
      exact printable_cons.mpr ⟨by decide, printable_cons.mpr ⟨he, printable_hexDigits _ _⟩⟩

theorem begins (hquote : quote ∈ quotes) (h : Escaped quote c word) :
    ∃ d rest, word = d :: rest ∧ d ≠ quote := by
  have hbackslash : '\\' ≠ quote := by
    rintro rfl
    exact absurd hquote (by decide)
  cases h with
  | marked _ => exact ⟨_, _, rfl, hbackslash⟩
  | letter _ => exact ⟨_, _, rfl, hbackslash⟩
  | plain hne _ _ => exact ⟨_, _, rfl, hne⟩
  | code =>
      obtain ⟨e, width, hcode, -⟩ := escapeCode_eq c.toNat
      exact ⟨_, _, hcode, hbackslash⟩

end Escaped

/-! ## Quoted text -/

theorem printable_quotedChars (cs : List CodePoint) : Printable (quotedChars cs) := by
  have hquote := quoteFor_mem_quotes cs
  have hquotes : Printable quotes := by
    decide
  have hmark := hquotes _ hquote
  refine printable_append.mpr ⟨printable_cons.mpr ⟨hmark, ?_⟩,
    printable_cons.mpr ⟨hmark, List.forall_mem_nil _⟩⟩
  intro d hd
  obtain ⟨c, -, hc⟩ := List.mem_flatMap.mp hd
  exact (escaped_escapeChar _ c).printable hquote d hc

theorem prefixFree_quotedChars : PrefixFree quotedChars := by
  intro cs ds h
  obtain ⟨hsame, hrow⟩ := List.cons_prefix_cons.mp h
  have hquote := quoteFor_mem_quotes ds
  have hescapes : PrefixFree (escapeChar (quoteFor ds)) :=
    prefixFree_of_reads fun c => (escaped_escapeChar _ c).unescape_append hquote
  rw [hsame] at hrow
  exact hescapes.row (fun c => (escaped_escapeChar _ c).begins hquote) hrow

theorem toList_quoted (s : Text) : (quoted s).toList = quotedChars s.toList :=
  Text.toList_ofList

theorem printable_quoted (s : Text) : Printable (quoted s).toList := by
  rw [toList_quoted]
  exact printable_quotedChars s.toList

theorem prefixFree_quoted : PrefixFree fun s => (quoted s).toList := by
  intro s t h
  simp only [toList_quoted] at h
  exact Text.toList_injective (prefixFree_quotedChars h)

/-- Quoted text begins with its quote. -/
theorem avoids_quoted {stop : CodePoint} (h : stop ∉ quotes) :
    Avoids (fun s => (quoted s).toList) stop := by
  intro s
  refine ⟨quoteFor s.toList, _, toList_quoted s, ?_⟩
  rintro rfl
  exact h (quoteFor_mem_quotes s.toList)

end NameCatalog.Text
