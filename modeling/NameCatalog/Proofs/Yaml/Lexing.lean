import NameCatalog.Proofs.Yaml.Tokens

/-!
# Reading tokens in block style

What one step of the lexer does with a dash, a key, a quoted text or an empty list, outside of flow
collections. Steps put together reach a later state; as each takes a character, they are steps of
the whole run.
-/

namespace NameCatalog.Yaml

namespace Position

theorem advance_line {c : CodePoint} (h : isBreak c = false) (p : Position) :
    (p.advance c).line = p.line := by
  unfold advance
  rw [if_neg (by simp [h])]
  split <;> rfl

theorem advance_eq {c : CodePoint} (hbreak : isBreak c = false) (hmark : c ≠ '\ufeff')
    (p : Position) :
    p.advance c = ⟨p.index + 1, p.line, p.column + 1⟩ := by
  rw [advance, if_neg (by simp [hbreak]), if_neg hmark]

end Position

/-! ## Quoted texts -/

/-- Whether a character stands for itself between double quotes. -/
def IsVerbatim (c : CodePoint) : Prop :=
  0x20 ≤ c.toNat ∧ c.toNat ≤ 0x7e ∧ c ≠ '"' ∧ c ≠ '\\'

instance (c : CodePoint) : Decidable (IsVerbatim c) :=
  inferInstanceAs (Decidable (_ ∧ _ ∧ _ ∧ _))

def AllVerbatim (cs : List CodePoint) : Prop := ∀ c ∈ cs, IsVerbatim c

instance (cs : List CodePoint) : Decidable (AllVerbatim cs) := List.decidableBAll IsVerbatim cs

theorem IsVerbatim.not_isBreak {c : CodePoint} (h : IsVerbatim c) : isBreak c = false := by
  rw [Bool.eq_false_iff]
  intro hbreak
  simp only [isBreak, Bool.or_eq_true, beq_iff_eq] at hbreak
  rcases hbreak with ((rfl | rfl) | rfl) | rfl
  · exact absurd h.1 (by decide)
  · exact absurd h.2.1 (by decide)
  · exact absurd h.2.1 (by decide)
  · exact absurd h.2.1 (by decide)

theorem IsVerbatim.ne_tab {c : CodePoint} (h : IsVerbatim c) : c ≠ '\t' := by
  rintro rfl
  exact absurd h.1 (by decide)

namespace Quoted

/-- The reader in the text of a line, behind blanks that it keeps for later. -/
inductive Inside : State → List CodePoint → Prop
  | text : Inside .text []
  | spaces (run : List CodePoint) : Inside (.spaces run) run

theorem textMove_verbatim {c : CodePoint} (h : IsVerbatim c) (hspace : c ≠ ' ')
    (rest : List CodePoint) :
    textMove true c rest = .go [c] .text := by
  have hspecial := h.2.2
  simp [textMove, atQuote, hspecial, isSpace, hspace, h.ne_tab, h.not_isBreak]

/-- Blanks are kept, and added in front of what comes after them. -/
theorem Inside.move {state : State} {held : List CodePoint} (h : Inside state held) {c : CodePoint}
    (hc : IsVerbatim c) (rest : List CodePoint) :
    ∃ added next kept, move true state c rest = .go added next ∧ Inside next kept ∧
      added ++ kept = held ++ [c] := by
  by_cases hspace : c = ' '
  · subst hspace
    cases h with
    | text => exact ⟨[], _, [' '], rfl, .spaces _, rfl⟩
    | spaces => exact ⟨[], _, held ++ [.char ' '], rfl, .spaces _, rfl⟩
  · have hmove := textMove_verbatim hc hspace rest
    have hblank : isSpace c = false := by
      simp [isSpace, hspace, hc.ne_tab]
    cases h with
    | text => exact ⟨[c], .text, [], hmove, .text, rfl⟩
    | spaces =>
        refine ⟨held ++ [c], .text, [], ?_, .text, List.append_nil _⟩
        simp [Quoted.move, hblank, hc.not_isBreak, hmove, Move.prepend]

theorem Inside.move_quote {state : State} {held : List CodePoint} (h : Inside state held)
    (rest : List CodePoint) : Quoted.move true state '"' rest = .close held := by
  cases h with
  | text => rfl
  | spaces =>
      have hmove : textMove true '"' rest = .close [] := rfl
      have hblank : isSpace '"' = false ∧ isBreak '"' = false := by
        decide
      simp [Quoted.move, hblank, hmove, Move.prepend]

/-- A text of verbatim characters is read as it is, without leaving its line. -/
theorem read_verbatim {state : State} {held cs : List CodePoint} (hstate : Inside state held)
    (h : AllVerbatim cs) (p : Position) (rest : List CodePoint) :
    ∃ q : Position, q.line = p.line ∧
      read true state p (cs ++ .char '"' :: rest) = .ok (held ++ cs, ⟨q, rest⟩) := by
  induction cs generalizing state held p with
  | nil =>
      refine ⟨p.advance '"', Position.advance_line (by decide) p, ?_⟩
      rw [List.nil_append, read, hstate.move_quote, List.append_nil]
  | cons c cs ih =>
      obtain ⟨hc, hcs⟩ := List.forall_mem_cons.mp h
      obtain ⟨added, next, kept, hmove, hnext, hkept⟩ := hstate.move hc (cs ++ .char '"' :: rest)
      obtain ⟨q, hline, hread⟩ := ih hnext hcs (p.advance c)
      refine ⟨q, hline.trans (Position.advance_line hc.not_isBreak p), ?_⟩
      rw [List.cons_append, read, hmove]
      simp only [hread]
      rw [← List.append_assoc, hkept, List.append_assoc, List.singleton_append]

end Quoted

/-! ## Words -/

def IsLetter (c : CodePoint) : Prop := 'a'.toNat ≤ c.toNat ∧ c.toNat ≤ 'z'.toNat

instance (c : CodePoint) : Decidable (IsLetter c) :=
  inferInstanceAs (Decidable (_ ∧ _))

def AllLetters (cs : List CodePoint) : Prop := ∀ c ∈ cs, IsLetter c

instance (cs : List CodePoint) : Decidable (AllLetters cs) := List.decidableBAll IsLetter cs

theorem IsLetter.isVerbatim {c : CodePoint} (h : IsLetter c) : IsVerbatim c := by
  obtain ⟨hlow, hhigh⟩ := h
  have hlow : 97 ≤ c.toNat := hlow
  have hhigh : c.toNat ≤ 122 := hhigh
  refine ⟨Nat.le_trans (by decide) hlow, Nat.le_trans hhigh (by decide), ?_, ?_⟩
  · rintro rfl
    exact absurd hlow (by decide)
  · rintro rfl
    exact absurd hlow (by decide)

theorem IsLetter.ne {c d : CodePoint} (h : IsLetter c) (hd : ¬ IsLetter d) : c ≠ d := by
  rintro rfl
  exact hd h

theorem IsLetter.advance {c : CodePoint} (h : IsLetter c) (p : Position) :
    p.advance c = ⟨p.index + 1, p.line, p.column + 1⟩ :=
  Position.advance_eq h.isVerbatim.not_isBreak (h.ne (by decide)) p

/-- A word of letters is read up to the colon behind it. -/
theorem Plain.read_word {word rest : List CodePoint} (h : AllLetters word)
    (hrest : atBlank rest = true) (indent : Int) (p : Position) :
    read false indent .none p (word ++ .char ':' :: rest) =
      ⟨word, false, ⟨p.index + word.length, p.line, p.column + word.length⟩,
        .char ':' :: rest⟩ := by
  induction word generalizing p with
  | nil =>
      have hcolon : endsWord false ':' rest = true := by
        simp [endsWord, endsKey, hrest]
      rw [List.nil_append, read, if_neg (by decide), if_neg (by decide), if_pos hcolon]
      rfl
  | cons c word ih =>
      obtain ⟨hc, hword⟩ := List.forall_mem_cons.mp h
      have hspace : c ≠ ' ' := hc.ne (by decide)
      have hbreak := hc.isVerbatim.not_isBreak
      have hends : endsWord false c (word ++ .char ':' :: rest) = false := by
        simp [endsWord, isSpace, hspace, hbreak, hc.ne (d := '\t') (by decide),
          hc.ne (d := ':') (by decide)]
      rw [List.cons_append, read, if_neg hspace, if_neg (by simp [hbreak]),
        if_neg (by simp [hends]), ih hword, hc.advance]
      simp [Result.prepend, Nat.add_assoc, Nat.add_comm 1]

namespace Lexer

/-! ## Steps in a row -/

/-- What the lexer does before it looks at a token: it goes on to it and closes blocks. -/
def settle (l : Lexer) : Except Fault Lexer :=
  l.toNextToken.dropStaleKeys.map fun l => l.unwind l.column

theorem next_eq (l : Lexer) :
    l.next = l.settle >>= fun m =>
      match m.cursor.chars with
      | [] => m.readEnd.map fun n => (n, false)
      | c :: rest => (m.readToken c rest).map fun n => (n, true) := by
  unfold settle next
  cases l.toNextToken.dropStaleKeys with
  | error f => rfl
  | ok m =>
      simp only [bind, Except.bind, Except.map]
      cases (m.unwind m.column).cursor.chars with
      | nil => cases (m.unwind m.column).readEnd <;> rfl
      | cons c rest =>
          dsimp only
          cases (m.unwind m.column).readToken c rest <;> rfl

/-- Steps that take at least a character each. -/
def Reaches (l l' : Lexer) : Prop :=
  ∃ steps, steps + l'.cursor.chars.length ≤ l.cursor.chars.length ∧
    ∀ fuel, run (fuel + steps) l = run fuel l'

theorem Reaches.refl (l : Lexer) : Reaches l l := ⟨0, Nat.le_of_eq (Nat.zero_add _), fun _ => rfl⟩

theorem Reaches.trans {l m n : Lexer} (hl : Reaches l m) (hm : Reaches m n) : Reaches l n := by
  obtain ⟨i, hi, hfirst⟩ := hl
  obtain ⟨j, hj, hsecond⟩ := hm
  refine ⟨i + j, by omega, ?_⟩
  intro fuel
  rw [← hsecond, ← hfirst, Nat.add_comm i j, Nat.add_assoc]

theorem Reaches.step {l l' : Lexer} (h : l.next = .ok (l', true))
    (hchars : l'.cursor.chars.length < l.cursor.chars.length) : Reaches l l' := by
  refine ⟨1, by omega, ?_⟩
  intro fuel
  rw [run, h]

/-- There is fuel enough for all steps. -/
theorem Reaches.run_eq {l m n : Lexer} (h : Reaches l m) (hend : m.next = .ok (n, false))
    {fuel : Nat} (hfuel : l.cursor.chars.length < fuel) : run fuel l = n.tokens.reverse := by
  obtain ⟨steps, hsteps, hrun⟩ := h
  obtain ⟨more, hmore⟩ : ∃ more, fuel = more + 1 + steps := ⟨fuel - steps - 1, by omega⟩
  rw [hmore, hrun, run, hend]

@[simp] theorem cursor_closeBlocks (column : Int) (l : Lexer) (outers : List Int) :
    (closeBlocks column l outers).cursor = l.cursor := by
  induction outers generalizing l with
  | nil => rfl
  | cons outer rest ih =>
      rw [closeBlocks]
      split
      · exact ih _
      · rfl

theorem length_settle {l m : Lexer} (h : l.settle = .ok m) :
    m.cursor.chars.length ≤ l.cursor.chars.length := by
  obtain ⟨stale, hstale, rfl⟩ := map_eq_ok_iff.mp h
  obtain ⟨outer, -, hrest⟩ := bind_eq_ok_iff.mp hstale
  obtain ⟨key, -, hl⟩ := bind_eq_ok_iff.mp hrest
  cases hl
  have hsuffix := skipGaps_suffix false l.cursor.position l.cursor.chars
  have hcursor (l : Lexer) (column : Int) : (l.unwind column).cursor = l.cursor := by
    unfold unwind
    split
    · rfl
    · exact cursor_closeBlocks column l l.indents
  rw [hcursor]
  exact hsuffix.length_le

theorem Reaches.of_settle {l m n : Lexer} {c : CodePoint} {rest : List CodePoint}
    (h : l.settle = .ok m)
    (hchars : m.cursor.chars = c :: rest) (htoken : m.readToken c rest = .ok n)
    (hlength : n.cursor.chars.length ≤ rest.length) : Reaches l n := by
  have hsettle := length_settle h
  refine .step ?_ ?_
  · rw [next_eq, h]
    simp only [bind, Except.bind, hchars, htoken]
    rfl
  · rw [hchars, List.length_cons] at hsettle
    omega

/-! ## Gaps -/

/-- A lexer outside of flow collections. -/
def inBlock (p : Position) (cs : List CodePoint) (indent : Int) (indents : List Int)
    (allowed : Bool) (key : Option KeyStart) (ts : List Token) : Lexer where
  cursor := ⟨p, cs⟩
  indent := indent
  indents := indents
  keyAllowed := allowed
  keyStart := key
  outerKeys := []
  tokens := ts
  count := ts.length

variable {p : Position} {c : CodePoint} {rest : List CodePoint} {indent : Int} {indents : List Int}
  {allowed : Bool} {key : Option KeyStart} {ts : List Token}

/-- A character that begins a token. -/
def BeginsToken (c : CodePoint) : Prop := isBreak c = false ∧ c ≠ ' ' ∧ c ≠ '#'

instance (c : CodePoint) : Decidable (BeginsToken c) :=
  inferInstanceAs (Decidable (_ ∧ _ ∧ _))

/-- A key that began further up and need not be one. -/
def IsStale (p : Position) (key : Option KeyStart) : Prop :=
  ∀ k ∈ key, k.required = false ∧ k.position.line ≤ p.line

theorem fresh_of_isStale (h : IsStale p key) {q : Position} (hline : p.line < q.line) :
    fresh q key = .ok none := by
  cases key with
  | none => rfl
  | some k =>
      obtain ⟨hrequired, hkey⟩ := h k rfl
      have hother : isFresh q k = false := by
        have hlines : k.position.line ≠ q.line := by omega
        simp [isFresh, hlines]
      simp [fresh, hother, hrequired]

theorem skipGaps_spaces (h : BeginsToken c) (k : Nat) (p : Position) (rest : List CodePoint) :
    skipGaps false p (List.replicate k (.char ' ') ++ c :: rest) =
      (false, ⟨⟨p.index + k, p.line, p.column + k⟩, c :: rest⟩) := by
  induction k generalizing p with
  | zero =>
      obtain ⟨hbreak, hspace, hcomment⟩ := h
      simp [skipGaps, hbreak, hspace, hcomment]
  | succ k ih =>
      have hadvance := Position.advance_eq (c := ' ') (by decide) (by decide) p
      rw [List.replicate_succ, List.cons_append, skipGaps, if_neg (by decide), if_pos (by decide),
        ih, hadvance]
      simp [Nat.add_assoc, Nat.add_comm 1]

/-- At the start of a line old keys are dropped, and blocks further right are closed. -/
theorem settle_line (h : BeginsToken c) (hkey : IsStale p key) (k : Nat) :
    (inBlock p (.char '\n' :: (List.replicate k (.char ' ') ++ c :: rest)) indent indents allowed
      key ts).settle =
      .ok (closeBlocks k (inBlock ⟨p.index + 1 + k, p.line + 1, k⟩ (c :: rest) indent indents true
        none ts) indents) := by
  have hfresh : fresh ⟨p.index + 1 + k, p.line + 1, k⟩ key = .ok none :=
    fresh_of_isStale hkey (Nat.lt_succ_self p.line)
  have hgaps : skipGaps false p (.char '\n' :: (List.replicate k (.char ' ') ++ c :: rest)) =
      (true, ⟨⟨p.index + 1 + k, p.line + 1, k⟩, c :: rest⟩) := by
    have hspaces := skipGaps_spaces h k ⟨p.index + 1, p.line + 1, 0⟩ rest
    rw [Nat.zero_add] at hspaces
    have hbreak : p.advance '\n' = ⟨p.index + 1, p.line + 1, 0⟩ := rfl
    rw [skipGaps, if_pos (by decide), hbreak, hspaces]
  simp only [settle, toNextToken, inBlock, hgaps, dropStaleKeys, hfresh, List.mapM_nil]
  cases allowed <;> rfl

theorem closeBlocks_of_le {column : Int} {l : Lexer} (h : l.indent ≤ column)
    (outers : List Int) : closeBlocks column l outers = l := by
  cases outers with
  | nil => rfl
  | cons outer rest => rw [closeBlocks, if_neg (Int.not_lt.mpr h)]

/-- Within a line a space is passed over. -/
theorem settle_space (h : BeginsToken c) (hcolumn : indent ≤ (p.column + 1 : Nat)) :
    (inBlock p (.char ' ' :: c :: rest) indent indents allowed none ts).settle =
      .ok (inBlock ⟨p.index + 1, p.line, p.column + 1⟩ (c :: rest) indent indents allowed none
        ts) := by
  have hgaps : skipGaps false p (.char ' ' :: c :: rest) =
      (false, ⟨⟨p.index + 1, p.line, p.column + 1⟩, c :: rest⟩) :=
    skipGaps_spaces h 1 p rest
  simp only [settle, toNextToken, inBlock, hgaps, dropStaleKeys, List.mapM_nil]
  cases allowed <;> exact congrArg Except.ok (closeBlocks_of_le hcolumn indents)

/-- A colon right behind a word finds the key that began with the word. -/
theorem settle_colon {k : KeyStart} (hcolumn : indent ≤ p.column) (hkey : isFresh p k = true) :
    (inBlock p (.char ':' :: rest) indent indents allowed (some k) ts).settle =
      .ok (inBlock p (.char ':' :: rest) indent indents allowed (some k) ts) := by
  have hgaps : skipGaps false p (.char ':' :: rest) = (false, ⟨p, .char ':' :: rest⟩) :=
    skipGaps_spaces (by decide) 0 p rest
  have hfresh : fresh p (some k) = .ok (some k) := by
    rw [fresh, if_pos hkey]
  simp only [settle, toNextToken, inBlock, hgaps, dropStaleKeys, hfresh, List.mapM_nil]
  cases allowed <;> exact congrArg Except.ok (closeBlocks_of_le hcolumn indents)

/-! ## Tokens -/

theorem readToken_dash {l : Lexer} (h : 0 < l.cursor.column) (rest : List CodePoint) :
    l.readToken '-' (.char ' ' :: rest) = l.readBlockEntry := by
  simp [readToken, Nat.ne_of_gt h, atBlank, isSpace]

theorem readToken_colon (l : Lexer) (h : atBlank rest = true) :
    l.readToken ':' rest = l.readValue := by
  simp [readToken, h]

theorem readToken_quote (l : Lexer) (rest : List CodePoint) :
    l.readToken '"' rest = l.readQuoted true := by
  simp [readToken]

theorem readToken_bracket (l : Lexer) (rest : List CodePoint) :
    l.readToken '[' rest = l.readFlowStart .flowSequenceStart := by
  simp [readToken]

theorem startsPlain_letter (h : IsLetter c) (inFlow : Bool) (rest : List CodePoint) :
    startsPlain inFlow c rest = true := by
  have hmarks : (Text.toList "-?:,[]\x7b\x7d#&*!|>\x27\"%@\x60").all
      (fun d => !decide (IsLetter d)) = true := by
    decide
  have hplain : (Text.toList "-?:,[]\x7b\x7d#&*!|>\x27\"%@\x60").contains c = false := by
    rw [Bool.eq_false_iff, ne_eq, List.contains_iff_mem]
    intro hmem
    simpa [h] using List.all_eq_true.mp hmarks c hmem
  have hspace : isSpace c = false := by
    simp [isSpace, h.ne (d := ' ') (by decide), h.ne (d := '\t') (by decide)]
  simp only [startsPlain, hplain, hspace, h.isVerbatim.not_isBreak, Bool.or_self, Bool.not_false,
    Bool.true_or]

theorem readToken_letter (h : IsLetter c) (l : Lexer) (rest : List CodePoint) :
    l.readToken c rest = l.readPlain := by
  have hne (d : CodePoint) (hd : ¬ IsLetter d) : c ≠ d := h.ne hd
  simp only [readToken, startsPlain_letter h, hne '%' (by decide), hne '-' (by decide),
    hne '.' (by decide), hne '[' (by decide), hne '\x7b' (by decide), hne ']' (by decide),
    hne '\x7d' (by decide), hne ',' (by decide), hne '?' (by decide), hne ':' (by decide),
    hne '*' (by decide), hne '&' (by decide), hne '!' (by decide), hne '|' (by decide),
    hne '>' (by decide), hne '\x27' (by decide), hne '"' (by decide), false_and, if_false, if_true]

theorem openBlockWith_of_lt (h : indent < p.column) (t : Token) (cs : List CodePoint) :
    (inBlock p cs indent indents allowed key ts).openBlockWith t =
      inBlock p cs p.column (indent :: indents) allowed key (t :: ts) := by
  have hopen : (inBlock p cs indent indents allowed key ts).openBlock
      (inBlock p cs indent indents allowed key ts).column =
        (true, inBlock p cs p.column (indent :: indents) allowed key ts) :=
    if_pos h
  rw [openBlockWith, hopen]
  rfl

theorem openBlockWith_self (h : indent = p.column) (t : Token) (cs : List CodePoint) :
    (inBlock p cs indent indents allowed key ts).openBlockWith t =
      inBlock p cs indent indents allowed key ts := by
  have hcolumn : ¬ indent < (inBlock p cs indent indents allowed key ts).column := by
    rw [h]
    exact Int.lt_irrefl _
  have hopen : (inBlock p cs indent indents allowed key ts).openBlock
      (inBlock p cs indent indents allowed key ts).column =
        (false, inBlock p cs indent indents allowed key ts) :=
    if_neg hcolumn
  rw [openBlockWith, hopen]
  rfl

theorem reaches_dash_of_openBlockWith {l : Lexer} {indent' : Int} {indents' : List Int}
    {ts' : List Token} (hcolumn : 0 < p.column)
    (h : l.settle = .ok (inBlock p (.char '-' :: .char ' ' :: rest) indent indents true none ts))
    (hopen : (inBlock p (.char '-' :: .char ' ' :: rest) indent indents true none
      ts).openBlockWith .blockSequenceStart =
        inBlock p (.char '-' :: .char ' ' :: rest) indent' indents' true none ts') :
    Reaches l (inBlock (p.advance '-') (.char ' ' :: rest) indent' indents' true none
      (.blockEntry :: ts')) := by
  have hmarked : 0 < (inBlock p (.char '-' :: .char ' ' :: rest) indent indents true none
      ts).cursor.column :=
    hcolumn
  refine .of_settle h rfl ?_ (Nat.le_refl _)
  rw [readToken_dash hmarked]
  change ((((inBlock p (.char '-' :: .char ' ' :: rest) indent indents true none ts).openBlockWith
    .blockSequenceStart).allowKey true).dropKey >>= fun l =>
      pure ((l.skip 1).emit .blockEntry)) = _
  rw [hopen]
  rfl

/-- A dash further right than the open blocks begins a sequence. -/
theorem reaches_first_dash {l : Lexer} (hcolumn : 0 < p.column) (hindent : indent < p.column)
    (h : l.settle = .ok (inBlock p (.char '-' :: .char ' ' :: rest) indent indents true none ts)) :
    Reaches l (inBlock (p.advance '-') (.char ' ' :: rest) p.column (indent :: indents) true none
      (.blockEntry :: .blockSequenceStart :: ts)) :=
  reaches_dash_of_openBlockWith hcolumn h (openBlockWith_of_lt hindent _ _)

/-- A dash in the column of the innermost block goes on with its sequence. -/
theorem reaches_next_dash {l : Lexer} (hcolumn : 0 < p.column) (hindent : indent = p.column)
    (h : l.settle = .ok (inBlock p (.char '-' :: .char ' ' :: rest) indent indents true none ts)) :
    Reaches l (inBlock (p.advance '-') (.char ' ' :: rest) indent indents true none
      (.blockEntry :: ts)) :=
  reaches_dash_of_openBlockWith hcolumn h (openBlockWith_self hindent _ _)

/-! ## Keys -/

/-- A word at a place where a key may begin. -/
theorem reaches_word {l : Lexer} {word : List CodePoint} (hne : word ≠ [])
    (hword : AllLetters word) (hrest : atBlank rest = true)
    (h : l.settle = .ok (inBlock p (word ++ .char ':' :: rest) indent indents true none ts)) :
    Reaches l (inBlock ⟨p.index + word.length, p.line, p.column + word.length⟩ (.char ':' :: rest)
      indent indents false (some ⟨ts.length, indent == p.column, p⟩)
        (.scalar (Text.ofList word) true :: ts)) := by
  obtain ⟨c, tail, rfl⟩ := List.exists_cons_of_ne_nil hne
  refine .of_settle h rfl ?_ ?_
  · rw [readToken_letter (hword c List.mem_cons_self)]
    have hread := Plain.read_word hword hrest (indent + 1) p
    change (pure ((((inBlock p (c :: tail ++ .char ':' :: rest) indent indents true
      (some ⟨ts.length, indent == p.column, p⟩) ts).allowKey
        (Plain.read false (indent + 1) .none p (c :: tail ++ .char ':' :: rest)).crossed).moveTo
        (Plain.read false (indent + 1) .none p (c :: tail ++ .char ':' :: rest)).cursor).emit
        (.scalar (Text.ofList
          (Plain.read false (indent + 1) .none p (c :: tail ++ .char ':' :: rest)).text) true)) :
        Except Fault Lexer) = _
    rw [hread]
    rfl
  · simp [inBlock]

theorem insertAt_last (t : Token) (added : List Token) (cs : List CodePoint) :
    (inBlock p cs indent indents allowed key (t :: ts)).insertAt ts.length added =
      ⟨⟨p, cs⟩, indent, indents, allowed, key, [], t :: (added.reverse ++ ts),
        ts.length + 1 + added.length⟩ := by
  have hsplit : (t :: ts).splitAt (ts.length + 1 - ts.length) = ([t], ts) := by
    simp [List.splitAt_eq]
  simp only [insertAt, inBlock, List.length_cons, hsplit]
  rfl

/-- A colon behind a word: the key token comes in front of the word, and with it the start of a
mapping when one is opened in the word's column. -/
theorem reaches_colon {required opened : Bool} {q : Position} {indent' : Int} {indents' : List Int}
    (t : Token) (hrest : atBlank rest = true) (hcolumn : indent ≤ p.column)
    (hkey : isFresh p ⟨ts.length, required, q⟩ = true)
    (hopen : (inBlock p (.char ':' :: rest) indent indents false none (t :: ts)).openBlock
        q.column = (opened, inBlock p (.char ':' :: rest) indent' indents' false none (t :: ts))) :
    Reaches (inBlock p (.char ':' :: rest) indent indents false (some ⟨ts.length, required, q⟩)
      (t :: ts))
      (inBlock (p.advance ':') rest indent' indents' false none
        (.value :: t :: .key :: if opened then .blockMappingStart :: ts else ts)) := by
  refine .of_settle (settle_colon hcolumn hkey) rfl ?_ (Nat.le_refl _)
  rw [readToken_colon _ hrest]
  change Except.ok ((((((inBlock p (.char ':' :: rest) indent indents false none
    (t :: ts)).openBlock q.column).2.insertAt ts.length
      (if ((inBlock p (.char ':' :: rest) indent
        indents false none (t :: ts)).openBlock q.column).1 then [.blockMappingStart, .key]
        else [.key])).allowKey false).skip 1).emit .value) = _
  rw [hopen, insertAt_last]
  cases opened <;> rfl

/-- A word with a colon behind it is a key: the first of a mapping of its own, when it stands
further right than the open blocks, and else one more of the innermost mapping. -/
theorem reaches_key {l : Lexer} {word : Text} (hne : word.toList ≠ [])
    (hword : AllLetters word.toList) (hshort : word.toList.length ≤ 1024)
    (hrest : atBlank rest = true) (hindent : indent ≤ p.column)
    (h : l.settle = .ok (inBlock p (word.toList ++ .char ':' :: rest) indent indents true none
      ts)) :
    ∃ q : Position, q.column = p.column + word.toList.length + 1 ∧
      Reaches l (if indent < p.column then
          inBlock q rest p.column (indent :: indents) false none
            (.value :: .scalar word true :: .key :: .blockMappingStart :: ts)
        else
          inBlock q rest indent indents false none
            (.value :: .scalar word true :: .key :: ts)) := by
  have hreach := reaches_word hne hword hrest h
  rw [Text.ofList_toList] at hreach
  generalize word.toList.length = length at *
  have hfresh : isFresh ⟨p.index + length, p.line, p.column + length⟩
      ⟨ts.length, indent == p.column, p⟩ = true := by
    simp only [isFresh, beq_self_eq_true, Bool.true_and, decide_eq_true_eq]
    omega
  have hcolumn : indent ≤ ((p.column + length : Nat) : Int) := by
    omega
  refine ⟨Position.advance ⟨p.index + length, p.line, p.column + length⟩ ':', rfl, ?_⟩
  split
  · next hlt => exact hreach.trans (reaches_colon _ hrest hcolumn hfresh (if_pos hlt))
  · next hge => exact hreach.trans (reaches_colon _ hrest hcolumn hfresh (if_neg hge))

/-! ## Values -/

theorem noteKey_inBlock (cs : List CodePoint) :
    (inBlock p cs indent indents allowed none ts).noteKey =
      .ok (inBlock p cs indent indents allowed
        (if allowed then some ⟨ts.length, indent == p.column, p⟩ else none) ts) := by
  cases allowed <;> rfl

/-- A quoted text may be a key until its line ends, but need not be one. -/
theorem reaches_quoted {l : Lexer} {cs : List CodePoint} (hcs : AllVerbatim cs)
    (hkey : allowed = true → indent ≠ p.column)
    (h : l.settle = .ok (inBlock p (.char '"' :: (cs ++ .char '"' :: rest)) indent indents allowed
      none ts)) :
    ∃ (q : Position) (key : Option KeyStart), IsStale q key ∧
      Reaches l (inBlock q rest indent indents false key
        (.scalar (Text.ofList cs) false :: ts)) := by
  obtain ⟨q, hline, hread⟩ := Quoted.read_verbatim .text hcs (p.advance '"') rest
  refine ⟨q, if allowed then some ⟨ts.length, indent == p.column, p⟩ else none, ?_, ?_⟩
  · intro k hk
    split at hk
    · next hallowed =>
        cases hk
        have hcolumn := hkey hallowed
        exact ⟨by simpa using hcolumn, Nat.le_of_eq hline.symm⟩
    · cases hk
  · refine .of_settle h rfl ?_ ?_
    · rw [readToken_quote, readQuoted, noteKey_inBlock]
      change (Quoted.read true .text (p.advance '"') (cs ++ .char '"' :: rest) >>= fun r =>
        pure (((inBlock p _ indent indents allowed _ ts).allowKey false).moveTo r.2 |>.emit
          (.scalar (Text.ofList r.1) false))) = _
      rw [hread]
      rfl
    · simp only [inBlock, List.length_append, List.length_cons]
      omega

/-- The lexer in the brackets of a list that cannot be a key. -/
def inBrackets (p : Position) (cs : List CodePoint) (indent : Int) (indents : List Int)
    (ts : List Token) : Lexer :=
  { inBlock p cs indent indents true none ts with outerKeys := [none] }

/-- Two brackets are an empty list. -/
theorem reaches_empty {l : Lexer}
    (h : l.settle = .ok (inBlock p (.char '[' :: .char ']' :: rest) indent indents false none ts)) :
    ∃ q : Position, Reaches l (inBlock q rest indent indents false none
        (.flowSequenceEnd :: .flowSequenceStart :: ts)) := by
  have hopen : Reaches l (inBrackets (p.advance '[') (.char ']' :: rest) indent indents
      (.flowSequenceStart :: ts)) := by
    refine .of_settle h rfl ?_ (Nat.le_refl _)
    rw [readToken_bracket, readFlowStart, noteKey_inBlock]
    rfl
  have hsettle : (inBrackets (p.advance '[') (.char ']' :: rest) indent indents
      (.flowSequenceStart :: ts)).settle =
        .ok (inBrackets (p.advance '[') (.char ']' :: rest) indent indents
          (.flowSequenceStart :: ts)) :=
    rfl
  exact ⟨(p.advance '[').advance ']', hopen.trans (.of_settle hsettle rfl rfl (Nat.le_refl _))⟩

/-! ## The end -/

theorem settle_end (hkey : IsStale p key) :
    (inBlock p ['\n'] indent indents allowed key ts).settle =
      .ok (closeBlocks 0 (inBlock (p.advance '\n') [] indent indents true none ts) indents) := by
  have hfresh : fresh (p.advance '\n') key = .ok none :=
    fresh_of_isStale hkey (Nat.lt_succ_self p.line)
  have hgaps : skipGaps false p ['\n'] = (true, ⟨p.advance '\n', []⟩) := rfl
  simp only [settle, toNextToken, inBlock, hgaps, dropStaleKeys, hfresh, List.mapM_nil]
  cases allowed <;> rfl

end Lexer

end NameCatalog.Yaml
