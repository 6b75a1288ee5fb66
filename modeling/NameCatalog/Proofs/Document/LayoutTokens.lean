import NameCatalog.Proofs.Document.Layout

/-!
# The tokens of a file in the plain layout

The lexer is followed line by line. The blocks that an entry leaves open are closed by the dash of
the next entry, or at the end.
-/

namespace NameCatalog.LayoutEntry

open Yaml (IsLetter KeyStart Position Token)
open Yaml.Lexer

def nameTokens (n : QuotableName) : List Token := [.blockEntry, .scalar n.text false]

def listTokens : List QuotableName → List Token
  | [] => [.flowSequenceStart, .flowSequenceEnd]
  | n :: names => .blockSequenceStart :: (n :: names).flatMap nameTokens

/-- The ends of the blocks that the list of names leaves open. -/
def closers : List QuotableName → List Token
  | [] => [.blockEnd]
  | _ :: _ => [.blockEnd, .blockEnd]

/-- The tokens of an entry, without the ends of its blocks. -/
def tokens (e : LayoutEntry) : List Token :=
  [.blockEntry, .blockMappingStart, .key, .scalar "package" true, .value,
    .scalar e.package.text false, .key, .scalar "names" true, .value] ++ listTokens e.names

def fileTokens (es : List LayoutEntry) : List Token :=
  [.blockMappingStart, .key, .scalar "packages" true, .value, .blockSequenceStart] ++
    es.flatMap (fun e => e.tokens ++ closers e.names) ++ [.blockEnd, .blockEnd, .streamEnd]

/-- The text behind a line: other lines, each behind a line feed. -/
def behind (ls : List (List CodePoint)) : List CodePoint := ls.flatMap (.char '\n' :: ·)

variable {p : Position} {key : Option KeyStart} {rest : List CodePoint}

theorem chars_quotedLine (start : Text) (n : QuotableName) :
    quotedLine start n ++ rest =
      start.toList ++ .char '"' :: (n.text.toList ++ .char '"' :: rest) := by
  simp [quotedLine]

/-- A text between quotes, behind a space. -/
theorem reaches_quotedName {indent : Int} {allowed : Bool}
    (hcolumn : indent ≤ (p.column + 1 : Nat))
    (hkey : allowed = true → indent ≠ (p.column + 1 : Nat)) (n : QuotableName)
    (indents : List Int) (ts : List Token) (rest : List CodePoint) :
    ∃ (q : Position) (key : Option KeyStart), IsStale q key ∧
      Reaches (inBlock p (.char ' ' :: .char '"' :: (n.text.toList ++ .char '"' :: rest)) indent
          indents allowed none ts)
        (inBlock q rest indent indents false key (.scalar n.text false :: ts)) := by
  have hsettle : (inBlock p (.char ' ' :: .char '"' :: (n.text.toList ++ .char '"' :: rest)) indent
      indents allowed none ts).settle = .ok (inBlock ⟨p.index + 1, p.line, p.column + 1⟩
        (.char '"' :: (n.text.toList ++ .char '"' :: rest)) indent indents allowed none ts) :=
    settle_space (by decide) hcolumn
  obtain ⟨q, key, hstale, hquoted⟩ := reaches_quoted n.isVerbatim hkey hsettle
  rw [Text.ofList_toList] at hquoted
  exact ⟨q, key, hstale, hquoted⟩

/-! ## Entries -/

/-- The blocks that are open when an entry begins, and the tokens that its dash brings with it. -/
inductive Open : Int → List Int → List Token → Prop
  | first : Open 0 [-1] [.blockSequenceStart]
  | behindEmpty : Open 4 [2, 0, -1] [.blockEnd]
  | behindNames : Open 6 [4, 2, 0, -1] [.blockEnd, .blockEnd]

theorem reaches_dash {indent : Int} {indents : List Int} {before : List Token}
    (h : Open indent indents before) (hkey : IsStale p key) (ts : List Token)
    (rest : List CodePoint) :
    ∃ q : Position, q.column = 3 ∧
      Reaches (inBlock p (.char '\n' :: (Text.toList "  - " ++ rest)) indent indents false key ts)
        (inBlock q (.char ' ' :: rest) 2 [0, -1] true none
          (.blockEntry :: (before.reverse ++ ts))) := by
  have hbegins : BeginsToken '-' := by
    decide
  have htwo : (0 : Int) < 2 := by
    decide
  refine ⟨Position.advance ⟨p.index + 1 + 2, p.line + 1, 2⟩ '-', rfl, ?_⟩
  cases h with
  | first =>
      have hsettle : (inBlock p (.char '\n' :: (Text.toList "  - " ++ rest)) 0 [-1] false key
          ts).settle = .ok (inBlock ⟨p.index + 1 + 2, p.line + 1, 2⟩
            (.char '-' :: .char ' ' :: rest) 0 [-1] true none ts) :=
        settle_line hbegins hkey 2
      exact reaches_first_dash Nat.two_pos htwo hsettle
  | behindEmpty =>
      have hsettle : (inBlock p (.char '\n' :: (Text.toList "  - " ++ rest)) 4 [2, 0, -1] false
          key ts).settle = .ok (inBlock ⟨p.index + 1 + 2, p.line + 1, 2⟩
            (.char '-' :: .char ' ' :: rest) 2 [0, -1] true none (.blockEnd :: ts)) :=
        settle_line hbegins hkey 2
      exact reaches_next_dash Nat.two_pos rfl hsettle
  | behindNames =>
      have hsettle : (inBlock p (.char '\n' :: (Text.toList "  - " ++ rest)) 6 [4, 2, 0, -1]
          false key ts).settle = .ok (inBlock ⟨p.index + 1 + 2, p.line + 1, 2⟩
            (.char '-' :: .char ' ' :: rest) 2 [0, -1] true none (.blockEnd :: .blockEnd :: ts)) :=
        settle_line hbegins hkey 2
      exact reaches_next_dash Nat.two_pos rfl hsettle

/-- The key of a package and the package itself, behind the dash of an entry. -/
theorem reaches_package (hcolumn : p.column = 3) (n : QuotableName) (ts : List Token)
    (rest : List CodePoint) :
    ∃ (q : Position) (key : Option KeyStart), IsStale q key ∧
      Reaches (inBlock p (.char ' ' :: (quotedLine "package: " n ++ rest)) 2 [0, -1] true none ts)
        (inBlock q rest 4 [2, 0, -1] false key
          (.scalar n.text false :: .value :: .scalar "package" true :: .key :: .blockMappingStart ::
            ts)) := by
  have hsettle : (inBlock p (.char ' ' :: (quotedLine "package: " n ++ rest)) 2 [0, -1] true none
      ts).settle = .ok (inBlock ⟨p.index + 1, p.line, p.column + 1⟩
        (Text.toList "package" ++
          .char ':' :: .char ' ' :: .char '"' :: (n.text.toList ++ .char '"' :: rest)) 2 [0, -1]
        true none ts) := by
    rw [chars_quotedLine]
    refine settle_space (by decide) ?_
    omega
  obtain ⟨q, hqcolumn, hkey⟩ := reaches_key (by decide) (by decide) (by decide) rfl
    (by dsimp only; omega) hsettle
  have hfour : p.column + 1 = 4 := by
    omega
  have hlength : (Text.toList "package").length = 7 := rfl
  dsimp only at hqcolumn hkey
  rw [hfour, if_pos (by decide)] at hkey
  have hvalue : (4 : Int) ≤ (q.column + 1 : Nat) := by
    omega
  have hnoKey : false = true → (4 : Int) ≠ (q.column + 1 : Nat) := nofun
  obtain ⟨r, key, hstale, hquoted⟩ := reaches_quotedName hvalue hnoKey n [2, 0, -1]
    (.value :: .scalar "package" true :: .key :: .blockMappingStart :: ts) rest
  exact ⟨r, key, hstale, hkey.trans hquoted⟩

/-! ## Names -/

theorem reaches_namesKey (hkey : IsStale p key) (hrest : Yaml.atBlank rest = true)
    (ts : List Token) :
    ∃ q : Position, q.column = 10 ∧
      Reaches (inBlock p (.char '\n' :: (Text.toList "    names:" ++ rest)) 4 [2, 0, -1] false
          key ts)
        (inBlock q rest 4 [2, 0, -1] false none
          (.value :: .scalar "names" true :: .key :: ts)) := by
  have hsettle : (inBlock p (.char '\n' :: (Text.toList "    names:" ++ rest)) 4 [2, 0, -1] false
      key ts).settle = .ok (inBlock ⟨p.index + 1 + 4, p.line + 1, 4⟩
        (Text.toList "names" ++ .char ':' :: rest) 4 [2, 0, -1] true none ts) :=
    settle_line (by decide) hkey 4
  obtain ⟨q, hcolumn, hreach⟩ := reaches_key (by decide) (by decide) (by decide) hrest
    (Int.le_refl _) hsettle
  exact ⟨q, hcolumn, hreach⟩

/-- The blocks that are open when a name begins, and the tokens that its dash brings with it. -/
inductive OpenNames : Int → List Int → List Token → Prop
  | first : OpenNames 4 [2, 0, -1] [.blockSequenceStart]
  | behind : OpenNames 6 [4, 2, 0, -1] []

theorem reaches_name {indent : Int} {indents : List Int} {before : List Token}
    (h : OpenNames indent indents before) (hkey : IsStale p key) (n : QuotableName)
    (ts : List Token) (rest : List CodePoint) :
    ∃ (q : Position) (key' : Option KeyStart), IsStale q key' ∧
      Reaches (inBlock p (.char '\n' :: (quotedLine "      - " n ++ rest)) indent indents false
          key ts)
        (inBlock q rest 6 [4, 2, 0, -1] false key'
          (.scalar n.text false :: .blockEntry :: (before.reverse ++ ts))) := by
  have hindent : indent ≤ 6 := by
    cases h <;> decide
  have hsettle : (inBlock p (.char '\n' :: (quotedLine "      - " n ++ rest)) indent indents false
      key ts).settle = .ok (inBlock ⟨p.index + 1 + 6, p.line + 1, 6⟩
        (.char '-' :: .char ' ' :: .char '"' :: (n.text.toList ++ .char '"' :: rest)) indent
        indents true none ts) := by
    rw [chars_quotedLine]
    exact (settle_line (by decide) hkey 6).trans
      (congrArg Except.ok (closeBlocks_of_le hindent indents))
  have hdash : Reaches (inBlock p (.char '\n' :: (quotedLine "      - " n ++ rest)) indent indents
      false key ts) (inBlock (Position.advance ⟨p.index + 1 + 6, p.line + 1, 6⟩ '-')
        (.char ' ' :: .char '"' :: (n.text.toList ++ .char '"' :: rest)) 6 [4, 2, 0, -1] true none
          (.blockEntry :: (before.reverse ++ ts))) := by
    have hright : (4 : Int) < 6 := by
      decide
    cases h with
    | first => exact reaches_first_dash (Nat.succ_pos 5) hright hsettle
    | behind => exact reaches_next_dash (Nat.succ_pos 5) rfl hsettle
  have hname : (6 : Int) < (7 + 1 : Nat) := by
    decide
  obtain ⟨q, key', hstale, hquoted⟩ := reaches_quotedName
    (p := Position.advance ⟨p.index + 1 + 6, p.line + 1, 6⟩ '-') (Int.le_of_lt hname)
    (fun _ => Int.ne_of_lt hname) n [4, 2, 0, -1] (.blockEntry :: (before.reverse ++ ts)) rest
  exact ⟨q, key', hstale, hdash.trans hquoted⟩

theorem behind_cons (l : List CodePoint) (ls : List (List CodePoint)) (rest : List CodePoint) :
    behind (l :: ls) ++ rest = .char '\n' :: (l ++ (behind ls ++ rest)) := by
  simp [behind]

theorem reaches_nameLines (n : QuotableName) (names : List QuotableName) {indent : Int}
    {indents : List Int} {before : List Token} (h : OpenNames indent indents before)
    (hkey : IsStale p key) (ts : List Token) (rest : List CodePoint) :
    ∃ (q : Position) (key' : Option KeyStart), IsStale q key' ∧
      Reaches (inBlock p (behind ((n :: names).map (quotedLine "      - ")) ++ rest) indent indents
          false key ts)
        (inBlock q rest 6 [4, 2, 0, -1] false key'
          (((n :: names).flatMap nameTokens).reverse ++ (before.reverse ++ ts))) := by
  induction names generalizing n p key indent indents before ts with
  | nil =>
      rw [List.map_singleton, behind_cons]
      exact reaches_name h hkey n ts rest
  | cons next names ih =>
      obtain ⟨q, key', hstale, hfirst⟩ := reaches_name h hkey n ts
        (behind ((next :: names).map (quotedLine "      - ")) ++ rest)
      obtain ⟨r, last, hlast, hmore⟩ := ih next .behind hstale
        (.scalar n.text false :: .blockEntry :: (before.reverse ++ ts))
      refine ⟨r, last, hlast, ?_⟩
      have htokens (us : List Token) : ((n :: next :: names).flatMap nameTokens).reverse ++ us =
          ((next :: names).flatMap nameTokens).reverse ++
            .scalar n.text false :: .blockEntry :: us := by
        simp [nameTokens]
      rw [List.map_cons, behind_cons, htokens]
      exact hfirst.trans hmore

/-- The list of names leaves the blocks open that the next entry closes. -/
theorem reaches_names (names : List QuotableName) (hkey : IsStale p key) (ts : List Token)
    (rest : List CodePoint) :
    ∃ (q : Position) (key' : Option KeyStart) (indent : Int) (indents : List Int),
      IsStale q key' ∧ Open indent indents (closers names) ∧
        Reaches (inBlock p (behind (nameLines names) ++ rest) 4 [2, 0, -1] false key ts)
          (inBlock q rest indent indents false key'
            ((listTokens names).reverse ++ .value :: .scalar "names" true :: .key :: ts)) := by
  cases names with
  | nil =>
      have hblank : Yaml.atBlank (.char ' ' :: .char '[' :: .char ']' :: rest) = true := rfl
      obtain ⟨q, hcolumn, hnames⟩ := reaches_namesKey hkey hblank ts
      have hsettle : (inBlock q (.char ' ' :: .char '[' :: .char ']' :: rest) 4 [2, 0, -1] false
          none (.value :: .scalar "names" true :: .key :: ts)).settle =
            .ok (inBlock ⟨q.index + 1, q.line, q.column + 1⟩ (.char '[' :: .char ']' :: rest) 4
              [2, 0, -1] false none (.value :: .scalar "names" true :: .key :: ts)) := by
        refine settle_space (by decide) ?_
        omega
      obtain ⟨r, hempty⟩ := reaches_empty hsettle
      exact ⟨r, none, 4, [2, 0, -1], nofun, .behindEmpty, hnames.trans hempty⟩
  | cons n names =>
      have hblank : Yaml.atBlank (behind ((n :: names).map (quotedLine "      - ")) ++ rest) =
          true :=
        rfl
      obtain ⟨q, -, hnames⟩ := reaches_namesKey hkey hblank ts
      have hnoKey : IsStale q none := nofun
      obtain ⟨r, key', hstale, hlist⟩ := reaches_nameLines n names .first hnoKey
        (.value :: .scalar "names" true :: .key :: ts) rest
      refine ⟨r, key', 6, [4, 2, 0, -1], hstale, .behindNames, ?_⟩
      have htokens (us : List Token) : (listTokens (n :: names)).reverse ++ us =
          ((n :: names).flatMap nameTokens).reverse ++ .blockSequenceStart :: us := by
        simp [listTokens]
      rw [htokens, nameLines, behind_cons]
      exact hnames.trans hlist

/-- One more entry, from a place where the next one may begin to another. -/
theorem reaches_entry (e : LayoutEntry) {indent : Int} {indents : List Int} {before : List Token}
    (h : Open indent indents before) (hkey : IsStale p key) (ts : List Token)
    (rest : List CodePoint) :
    ∃ (q : Position) (key' : Option KeyStart) (indent' : Int) (indents' : List Int),
      IsStale q key' ∧ Open indent' indents' (closers e.names) ∧
        Reaches (inBlock p (behind e.lines ++ rest) indent indents false key ts)
          (inBlock q rest indent' indents' false key'
            (e.tokens.reverse ++ (before.reverse ++ ts))) := by
  obtain ⟨q, hcolumn, hdash⟩ := reaches_dash h hkey ts
    (quotedLine "package: " e.package ++ (behind (nameLines e.names) ++ rest))
  obtain ⟨r, other, hstale, hpackage⟩ := reaches_package hcolumn e.package
    (.blockEntry :: (before.reverse ++ ts)) (behind (nameLines e.names) ++ rest)
  obtain ⟨s, last, indent', indents', hlast, hopen, hnames⟩ := reaches_names e.names
    hstale (.scalar e.package.text false :: .value :: .scalar "package" true :: .key ::
      .blockMappingStart :: .blockEntry :: (before.reverse ++ ts)) rest
  refine ⟨s, last, indent', indents', hlast, hopen, ?_⟩
  have hreach := (hdash.trans hpackage).trans hnames
  have hline : quotedLine "  - package: " e.package =
      Text.toList "  - " ++ quotedLine "package: " e.package := by
    rfl
  have htokens (us : List Token) : e.tokens.reverse ++ us = (listTokens e.names).reverse ++
      .value :: .scalar "names" true :: .key :: .scalar e.package.text false :: .value ::
        .scalar "package" true :: .key :: .blockMappingStart :: .blockEntry :: us := by
    simp [tokens]
  rw [lines, behind_cons, htokens, hline, List.append_assoc]
  exact hreach

/-- The entries one after the other; only the blocks of the last one stay open. -/
theorem reaches_entries (e : LayoutEntry) (es : List LayoutEntry) {indent : Int}
    {indents : List Int} {before : List Token} (h : Open indent indents before)
    (hkey : IsStale p key) (ts : List Token) (rest : List CodePoint) :
    ∃ (q : Position) (key' : Option KeyStart) (indent' : Int) (indents' : List Int)
      (names : List QuotableName) (us : List Token),
      IsStale q key' ∧ Open indent' indents' (closers names) ∧
        (closers names).reverse ++ us =
          ((e :: es).flatMap fun e => e.tokens ++ closers e.names).reverse ++
            (before.reverse ++ ts) ∧
        Reaches (inBlock p (behind ((e :: es).flatMap lines) ++ rest) indent indents false key ts)
          (inBlock q rest indent' indents' false key' us) := by
  induction es generalizing e p key indent indents before ts with
  | nil =>
      obtain ⟨q, key', indent', indents', hstale, hopen, hreach⟩ := reaches_entry e h hkey ts rest
      refine ⟨q, key', indent', indents', e.names, e.tokens.reverse ++ (before.reverse ++ ts),
        hstale, hopen, ?_, ?_⟩
      · simp
      · rw [List.flatMap_singleton]
        exact hreach
  | cons next es ih =>
      obtain ⟨q, key', indent', indents', hstale, hopen, hreach⟩ := reaches_entry e h hkey ts
        (behind ((next :: es).flatMap lines) ++ rest)
      obtain ⟨r, last, inmost, outers, names, us, hlast, hend, htokens, hmore⟩ :=
        ih next hopen hstale (e.tokens.reverse ++ (before.reverse ++ ts))
      refine ⟨r, last, inmost, outers, names, us, hlast, hend, ?_, ?_⟩
      · rw [htokens, List.flatMap_cons (x := e)]
        simp
      · have hlines : behind ((e :: next :: es).flatMap lines) ++ rest =
            behind e.lines ++ (behind ((next :: es).flatMap lines) ++ rest) := by
          simp [behind]
        rw [hlines]
        exact hreach.trans hmore

/-! ## Files -/

theorem next_end {indent : Int} {indents : List Int} {names : List QuotableName}
    (h : Open indent indents (closers names)) (hkey : IsStale p key) (ts : List Token) :
    ∃ l, (inBlock p ['\n'] indent indents false key ts).next = .ok (l, false) ∧
      l.tokens = .streamEnd :: .blockEnd :: .blockEnd :: ((closers names).reverse ++ ts) := by
  rw [next_eq, settle_end hkey]
  cases names with
  | nil =>
      cases h
      exact ⟨_, rfl, rfl⟩
  | cons n names =>
      cases h
      exact ⟨_, rfl, rfl⟩

theorem flatMap_lineFeed (l : List CodePoint) (ls : List (List CodePoint)) :
    ((l :: ls).flatMap fun l => l ++ [.char '\n']) = l ++ (behind ls ++ [.char '\n']) := by
  induction ls generalizing l with
  | nil => simp [behind]
  | cons next ls ih =>
      rw [List.flatMap_cons, ih, behind_cons, List.append_assoc, List.singleton_append]

theorem length_start_le (cs : List CodePoint) : (start cs).cursor.chars.length ≤ cs.length := by
  rw [start]
  split
  · exact (Yaml.Cursor.drop_suffix _ 1).length_le
  · exact Nat.le_refl _

/-- The first line opens the mapping of the file. -/
theorem reaches_packages (hrest : Yaml.atBlank rest = true) :
    ∃ q : Position, Reaches (start (Text.toList "packages:" ++ rest))
      (inBlock q rest 0 [-1] false none
        [.value, .scalar "packages" true, .key, .blockMappingStart]) := by
  have hstart : start (Text.toList "packages:" ++ rest) =
      inBlock .start (Text.toList "packages" ++ .char ':' :: rest) (-1) [] true none [] := rfl
  have hsettle : (start (Text.toList "packages:" ++ rest)).settle =
      .ok (inBlock .start (Text.toList "packages" ++ .char ':' :: rest) (-1) [] true
        none []) := by
    have hgaps : skipGaps false .start (Text.toList "packages" ++ .char ':' :: rest) =
        (false, ⟨.start, Text.toList "packages" ++ .char ':' :: rest⟩) :=
      skipGaps_spaces (by decide) 0 .start _
    rw [hstart]
    simp only [settle, toNextToken, inBlock, hgaps, dropStaleKeys, List.mapM_nil]
    rfl
  obtain ⟨q, -, hreach⟩ := reaches_key (by decide) (by decide) (by decide) hrest (by decide)
    hsettle
  exact ⟨q, hreach⟩

theorem ofText_fileLines {es : List LayoutEntry} (h : es ≠ []) :
    Token.ofText ((fileLines es).flatMap fun l => l ++ [.char '\n']) = fileTokens es := by
  obtain ⟨e, es, rfl⟩ := List.exists_cons_of_ne_nil h
  have hblank : Yaml.atBlank (behind ((e :: es).flatMap lines) ++ [.char '\n']) = true := rfl
  obtain ⟨q, hfirst⟩ := reaches_packages hblank
  have hnoKey : IsStale q none := nofun
  obtain ⟨r, key, indent, indents, names, us, hstale, hopen, htokens, hentries⟩ :=
    reaches_entries e es .first hnoKey [.value, .scalar "packages" true, .key, .blockMappingStart]
      ['\n']
  obtain ⟨l, hend, hl⟩ := next_end hopen hstale us
  have hlines : ((fileLines (e :: es)).flatMap fun l => l ++ [.char '\n']) =
      Text.toList "packages:" ++ (behind ((e :: es).flatMap lines) ++ [.char '\n']) := by
    rw [fileLines, flatMap_lineFeed]
  have hrun := (hfirst.trans hentries).run_eq hend
    (Nat.lt_succ_of_le (length_start_le (Text.toList "packages:" ++ _)))
  calc Token.ofText ((fileLines (e :: es)).flatMap fun l => l ++ [.char '\n'])
      = l.tokens.reverse := by rw [hlines, Token.ofText, hrun]
    _ = fileTokens (e :: es) := by
        rw [hl, htokens]
        simp [fileTokens]

end NameCatalog.LayoutEntry
