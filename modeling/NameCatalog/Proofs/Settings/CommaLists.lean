import Mathlib.Data.List.TakeWhile
import NameCatalog.Proofs.Settings.Sources
import NameCatalog.Proofs.Text.Splitting

/-!
# Lists with commas

A list of names can be written as one text in many ways: the names are joined with commas, there may
be blanks around each of them, and pieces of nothing but blanks may stand anywhere. Each of these
texts is read as the list, and each text is read as a list of which it is a writing.
-/

namespace NameCatalog

namespace Text

/-! ## Blanks at the ends -/

theorem dropWhile_isBlank {cs : List CodePoint} (h : ∀ c ∈ cs.head?, isBlank c = false) :
    cs.dropWhile isBlank = cs := by
  cases cs with
  | nil => rfl
  | cons c cs => rw [List.dropWhile_cons_of_neg (by simp [h c rfl])]

theorem isBlank_of_mem_takeWhile {c : CodePoint} {cs : List CodePoint}
    (h : c ∈ cs.takeWhile isBlank) :
    isBlank c = true :=
  List.mem_takeWhile_imp h

theorem not_isBlank_of_mem_head? {c : CodePoint} {cs : List CodePoint}
    (h : c ∈ (cs.dropWhile isBlank).head?) : isBlank c = false := by
  rw [← List.find?_not_eq_head?_dropWhile] at h
  simpa using List.find?_some h

/-- What is trimmed are blanks. -/
theorem exists_padding (cs : List CodePoint) :
    ∃ before after, (∀ c ∈ before, isBlank c = true) ∧ (∀ c ∈ after, isBlank c = true) ∧
      cs.dropWhile isBlank = trimBlanks cs ++ after ∧ cs = before ++ trimBlanks cs ++ after := by
  let behind := cs.dropWhile isBlank
  have hcs : cs.takeWhile isBlank ++ behind = cs := List.takeWhile_append_dropWhile
  have hbehind : trimBlanks cs ++ (behind.reverse.takeWhile isBlank).reverse = behind := by
    rw [trimBlanks, ← List.reverse_append, List.takeWhile_append_dropWhile, List.reverse_reverse]
  refine ⟨cs.takeWhile isBlank, (behind.reverse.takeWhile isBlank).reverse, ?_, ?_,
    hbehind.symm, ?_⟩
  · intro c hc
    exact isBlank_of_mem_takeWhile hc
  · intro c hc
    exact isBlank_of_mem_takeWhile (List.mem_reverse.mp hc)
  · rw [List.append_assoc, hbehind, hcs]

theorem head?_trimBlanks (cs : List CodePoint) :
    ∀ c ∈ (trimBlanks cs).head?, isBlank c = false := by
  obtain ⟨-, after, -, -, hbehind, -⟩ := exists_padding cs
  intro c hc
  have hfirst : c ∈ (cs.dropWhile isBlank).head? := by
    rw [hbehind, List.head?_append, hc]
    rfl
  exact not_isBlank_of_mem_head? hfirst

theorem getLast?_trimBlanks (cs : List CodePoint) :
    ∀ c ∈ (trimBlanks cs).getLast?, isBlank c = false := by
  intro c hc
  rw [trimBlanks, List.getLast?_reverse] at hc
  exact not_isBlank_of_mem_head? hc

/-- Nothing is left of blanks alone. -/
theorem trimBlanks_eq_nil_iff {cs : List CodePoint} :
    trimBlanks cs = [] ↔ ∀ c ∈ cs, isBlank c = true := by
  constructor
  · intro h
    obtain ⟨before, after, hbefore, hafter, -, hcs⟩ := exists_padding cs
    rw [hcs, h, List.append_nil]
    exact List.forall_mem_append.mpr ⟨hbefore, hafter⟩
  · intro h
    have hnone : cs.dropWhile isBlank = [] := List.dropWhile_eq_nil_iff.mpr h
    rw [trimBlanks, hnone]
    rfl

theorem trimBlanks_padded {before cs after : List CodePoint}
    (hbefore : ∀ c ∈ before, isBlank c = true)
    (hafter : ∀ c ∈ after, isBlank c = true) (hne : cs ≠ [])
    (hfirst : ∀ c ∈ cs.head?, isBlank c = false) (hlast : ∀ c ∈ cs.getLast?, isBlank c = false) :
    trimBlanks (before ++ cs ++ after) = cs := by
  have hstart : (before ++ (cs ++ after)).dropWhile isBlank = cs ++ after := by
    rw [List.dropWhile_append_of_pos hbefore]
    refine dropWhile_isBlank ?_
    rwa [List.head?_append_of_ne_nil cs hne]
  have hend : (after.reverse ++ cs.reverse).dropWhile isBlank = cs.reverse := by
    rw [List.dropWhile_append_of_pos fun c hc => hafter c (List.mem_reverse.mp hc)]
    refine dropWhile_isBlank ?_
    rwa [List.head?_reverse]
  rw [List.append_assoc, trimBlanks, hstart, List.reverse_append, hend, List.reverse_reverse]

end Text

/-! ## Writings of a list -/

/-- A name that can be told from its neighbours in a list with commas. -/
structure IsListItem (s : Text) : Prop where
  ne_empty : s ≠ ""
  comma_not_mem : .char ',' ∉ s.toList
  first_not_blank : ∀ c ∈ s.toList.head?, Text.isBlank c = false
  last_not_blank : ∀ c ∈ s.toList.getLast?, Text.isBlank c = false

theorem isListItem_iff {s : Text} :
    IsListItem s ↔ s ≠ "" ∧ .char ',' ∉ s.toList ∧
      s.toList.head?.all (fun c => !Text.isBlank c) = true ∧
      s.toList.getLast?.all (fun c => !Text.isBlank c) = true := by
  simp only [Option.all_eq_true, Bool.not_eq_true']
  constructor
  · rintro ⟨hempty, hcomma, hfirst, hlast⟩
    exact ⟨hempty, hcomma, hfirst, hlast⟩
  · rintro ⟨hempty, hcomma, hfirst, hlast⟩
    exact ⟨hempty, hcomma, hfirst, hlast⟩

instance (s : Text) : Decidable (IsListItem s) := decidable_of_iff' _ isListItem_iff

namespace Settings

open Text

/-- The pieces write the names: each piece is blank, or a name with blanks around it. -/
inductive Writes : List Text → List (List CodePoint) → Prop
  | nil : Writes [] []
  | blank {names : List Text} {piece : List CodePoint} {pieces : List (List CodePoint)}
      (hpiece : ∀ c ∈ piece, isBlank c = true) (rest : Writes names pieces) :
      Writes names (piece :: pieces)
  | name {s : Text} {names : List Text} {before after : List CodePoint}
      {pieces : List (List CodePoint)}
      (hbefore : ∀ c ∈ before, isBlank c = true) (hafter : ∀ c ∈ after, isBlank c = true)
      (rest : Writes names pieces) : Writes (s :: names) ((before ++ s.toList ++ after) :: pieces)

/-- The text writes the names, with commas between the pieces. -/
def IsWriting (names : List Text) (t : Text) : Prop :=
  ∃ pieces, Writes names pieces ∧ t = Text.ofList (joinWith [','] pieces)

/-- What the pieces of a text are read as. -/
def itemsOf (pieces : List (List CodePoint)) : List Text :=
  ((pieces.map trimBlanks).filter (· ≠ [])).map Text.ofList

theorem itemsOf_cons_blank {piece : List CodePoint} (h : ∀ c ∈ piece, isBlank c = true)
    (pieces : List (List CodePoint)) : itemsOf (piece :: pieces) = itemsOf pieces := by
  have htrim : trimBlanks piece = [] := trimBlanks_eq_nil_iff.mpr h
  simp [itemsOf, htrim]

theorem itemsOf_cons {piece : List CodePoint} (h : trimBlanks piece ≠ [])
    (pieces : List (List CodePoint)) :
    itemsOf (piece :: pieces) = Text.ofList (trimBlanks piece) :: itemsOf pieces := by
  simp [itemsOf, h]

/-- There is one item for each piece that is not blank. -/
theorem itemsOf_eq (pieces : List (List CodePoint)) :
    itemsOf pieces =
      (pieces.filter fun piece => piece.any (!isBlank ·)).map (Text.ofList ∘ trimBlanks) := by
  have hkept : ∀ piece ∈ pieces,
      decide (trimBlanks piece ≠ []) = piece.any (!isBlank ·) := by
    intro piece _
    rw [Bool.eq_iff_iff, decide_eq_true_iff, ne_eq, trimBlanks_eq_nil_iff]
    simp
  rw [itemsOf, List.filter_map, List.map_map]
  exact congrArg _ (List.filter_congr hkept)

theorem comma_not_mem_of_blank {cs : List CodePoint} (h : ∀ c ∈ cs, isBlank c = true) :
    .char ',' ∉ cs := by
  intro hc
  have hcomma := h ',' hc
  exact absurd hcomma (by decide)

namespace Writes

variable {names : List Text} {pieces : List (List CodePoint)}

theorem comma_not_mem (h : Writes names pieces) (hnames : ∀ s ∈ names, IsListItem s) :
    ∀ piece ∈ pieces, .char ',' ∉ piece := by
  induction h with
  | nil => exact List.forall_mem_nil _
  | blank hpiece _ ih => exact List.forall_mem_cons.mpr ⟨comma_not_mem_of_blank hpiece, ih hnames⟩
  | name hbefore hafter _ ih =>
      obtain ⟨hs, hrest⟩ := List.forall_mem_cons.mp hnames
      refine List.forall_mem_cons.mpr ⟨?_, ih hrest⟩
      simp only [List.mem_append, not_or]
      exact ⟨⟨comma_not_mem_of_blank hbefore, hs.comma_not_mem⟩, comma_not_mem_of_blank hafter⟩

theorem itemsOf_eq (h : Writes names pieces) (hnames : ∀ s ∈ names, IsListItem s) :
    itemsOf pieces = names := by
  induction h with
  | nil => rfl
  | blank hpiece _ ih => rw [itemsOf_cons_blank hpiece, ih hnames]
  | @name s _ _ _ _ hbefore hafter _ ih =>
      obtain ⟨hs, hrest⟩ := List.forall_mem_cons.mp hnames
      have hne : s.toList ≠ [] := mt Text.toList_eq_nil_iff.mp hs.ne_empty
      have htrim := trimBlanks_padded hbefore hafter hne hs.first_not_blank hs.last_not_blank
      rw [itemsOf_cons (by rwa [htrim]), htrim, Text.ofList_toList, ih hrest]

end Writes

/-- All pieces write what they are read as. -/
theorem writes_itemsOf (pieces : List (List CodePoint)) : Writes (itemsOf pieces) pieces := by
  induction pieces with
  | nil => exact .nil
  | cons piece pieces ih =>
      by_cases h : ∀ c ∈ piece, isBlank c = true
      · rw [itemsOf_cons_blank h]
        exact .blank h ih
      · obtain ⟨before, after, hbefore, hafter, -, hpiece⟩ := exists_padding piece
        have hwrites := Writes.name (s := Text.ofList (trimBlanks piece)) hbefore hafter ih
        rw [Text.toList_ofList, ← hpiece] at hwrites
        rwa [itemsOf_cons (mt trimBlanks_eq_nil_iff.mp h)]

theorem isListItem_of_mem_listed {s t : Text} (h : s ∈ listed t) : IsListItem s := by
  obtain ⟨cs, hcs, rfl⟩ := List.mem_map.mp h
  obtain ⟨hmem, hne⟩ := List.mem_filter.mp hcs
  obtain ⟨piece, hpiece, rfl⟩ := List.mem_map.mp hmem
  refine ⟨?_, ?_, ?_, ?_⟩
  · exact fun hempty => of_decide_eq_true hne (Text.ofList_eq_empty_iff.mp hempty)
  · obtain ⟨before, after, -, -, -, hwhole⟩ := exists_padding piece
    intro hcomma
    rw [Text.toList_ofList] at hcomma
    have hinPiece : .char ',' ∈ piece := by
      rw [hwhole]
      exact List.mem_append_left after (List.mem_append_right before hcomma)
    exact (not_mem_of_mem_pieces hpiece).1 hinPiece
  · rw [Text.toList_ofList]
    exact head?_trimBlanks piece
  · rw [Text.toList_ofList]
    exact getLast?_trimBlanks piece

theorem isWriting_listed (t : Text) : IsWriting (listed t) t := by
  refine ⟨pieces ',' t.toList, writes_itemsOf _, ?_⟩
  rw [joinWith_pieces, Text.ofList_toList]

theorem listed_of_isWriting {names : List Text} {t : Text} (h : IsWriting names t)
    (hnames : ∀ s ∈ names, IsListItem s) : listed t = names := by
  obtain ⟨row, hrow, rfl⟩ := h
  change itemsOf (pieces ',' (Text.ofList (joinWith [','] row)).toList) = names
  rw [Text.toList_ofList]
  by_cases hempty : row = []
  · subst hempty
    exact hrow.itemsOf_eq hnames
  · rw [pieces_joinWith hempty (hrow.comma_not_mem hnames), hrow.itemsOf_eq hnames]

/-- A text is read as a list of names if and only if it is a writing of the list. -/
theorem listed_eq_iff {names : List Text} {t : Text} (hnames : ∀ s ∈ names, IsListItem s) :
    listed t = names ↔ IsWriting names t := by
  constructor
  · rintro rfl
    exact isWriting_listed t
  · intro h
    exact listed_of_isWriting h hnames

/-! ## Settings from a list with commas -/

open Sources

variable {given : List (Text × Value)} {environment : List (Text × Text)}

/-- The given values with one more, which counts before any other of its name. -/
def withGiven (given : List (Text × Value)) (s : Setting) (v : Value) : List (Text × Value) :=
  given ++ [(s.word, v)]

theorem find_withGiven_self (s : Setting) (v : Value) (file : List (Text × Option Text)) :
    find ⟨withGiven given s v, environment, file⟩ s = some v := by
  simp [find, withGiven]

theorem find_withGiven_ne {s other : Setting} (h : other ≠ s) (v : Value)
    (file : List (Text × Option Text)) :
    find ⟨withGiven given s v, environment, file⟩ other =
      find ⟨given, environment, file⟩ other := by
  have hword : (other.word == s.word) = false := by
    revert h
    cases s <;> cases other <;> decide
  simp [find, withGiven, List.lookup_cons, hword]

theorem load_congr_given {other : List (Text × Value)}
    (h : ∀ file, ofSources ⟨given, environment, file⟩ = ofSources ⟨other, environment, file⟩)
    (host : Host) : load given environment host = load other environment host := by
  unfold load
  cases statements host with
  | error f => rfl
  | ok ss => simp only [h]

theorem pathsFrom_map_text (i : Nat) (names : List Text) :
    pathsFrom i (names.map .text) = ([], names.map Path.ofString) := by
  induction names generalizing i with
  | nil => rfl
  | cons s names ih =>
      rw [List.map_cons, pathsFrom, ih]
      rfl

theorem readFiles_list (names : List Text) :
    readFiles (.list (names.map .text)) = .ok (names.map Path.ofString) := by
  simp only [readFiles, items?, pathsFrom_map_text]

theorem readFiles_text (t : Text) : readFiles (.text t) = .ok ((listed t).map Path.ofString) := rfl

/-- A list and its writings are read alike, and the level is the same in any case. -/
theorem ofSources_of_isWriting {names : List Text} {t : Text}
    (hnames : ∀ s ∈ names, IsListItem s) (hwriting : IsWriting names t) {src other : Sources}
    (hfind : src.find .catalogFiles = some (.text t))
    (hother : other.find .catalogFiles = some (.list (names.map .text)))
    (hlevel : src.find .logLevel = other.find .logLevel) : ofSources src = ofSources other := by
  have hfiles : catalogFilesOf src = catalogFilesOf other := by
    rw [catalogFilesOf_eq, catalogFilesOf_eq, hfind, hother, filesFrom, filesFrom, readFiles_list,
      readFiles_text, (listed_eq_iff hnames).mpr hwriting]
  rw [ofSources, ofSources, hfiles, logLevelOf_eq, logLevelOf_eq, hlevel]

/-- Every text that writes a list of names gives the settings that the list itself gives, as a value
or as a variable of the environment: the same files in the same order. Every text writes the list of
its items. Those are names that can be told apart in a list, one for each piece between commas that
is not blank. -/
theorem comma_lists_are_read_back :
    (∀ (names : List Text) (t : Text), (∀ s ∈ names, IsListItem s) → IsWriting names t →
      ∀ (given : List (Text × Value)) (environment : List (Text × Text)) (host : Host),
        let asList :=
          load (withGiven given .catalogFiles (.list (names.map .text))) environment host
        load (withGiven given .catalogFiles (.text t)) environment host = asList ∧
          ((∀ v ∈ given, v.1 ≠ "catalog_files") →
            LastIs environment Setting.catalogFiles.IsVariable t →
              load given environment host = asList) ∧
          ∀ ss level, statements host = .ok ss →
            logLevelOf ⟨given, environment, EnvFile.variablesOf environment ss⟩ = .ok level →
              asList.2 = .ok ⟨level, names.map Path.ofString⟩) ∧
    ∀ t : Text, (∀ s ∈ listed t, IsListItem s) ∧ IsWriting (listed t) t ∧
      listed t = ((pieces ',' t.toList).filter fun piece => piece.any (!isBlank ·)).map
        (Text.ofList ∘ trimBlanks) := by
  refine ⟨?_, fun t => ⟨fun s hs => isListItem_of_mem_listed hs, isWriting_listed t, itemsOf_eq _⟩⟩
  intro names t hnames hwriting given environment host asList
  have hlist (file : List (Text × Option Text)) :
      find ⟨withGiven given .catalogFiles (.list (names.map .text)), environment, file⟩
        .catalogFiles = some (.list (names.map .text)) :=
    find_withGiven_self _ _ file
  have hlevel (v : Value) (file : List (Text × Option Text)) :
      find ⟨withGiven given .catalogFiles v, environment, file⟩ .logLevel =
        find ⟨given, environment, file⟩ .logLevel :=
    find_withGiven_ne (by decide) v file
  refine ⟨?_, ?_, ?_⟩
  · apply load_congr_given
    intro file
    refine ofSources_of_isWriting hnames hwriting (find_withGiven_self _ _ file) (hlist file) ?_
    rw [hlevel, hlevel]
  · intro hgiven hvariable
    apply load_congr_given
    intro file
    exact ofSources_of_isWriting hnames hwriting (decides_iff.mp (.environment hgiven hvariable))
      (hlist file) (hlevel _ file).symm
  · intro ss level hss hgivenLevel
    have hread : ofSources ⟨withGiven given .catalogFiles (.list (names.map .text)), environment,
        EnvFile.variablesOf environment ss⟩ = .ok ⟨level, names.map Path.ofString⟩ := by
      rw [ofSources_eq_ok_iff, logLevelOf_eq, hlevel, ← logLevelOf_eq, catalogFilesOf_eq, hlist]
      exact ⟨hgivenLevel, readFiles_list names⟩
    exact load_eq_ok_iff.mpr ⟨ss, hss, hread⟩

/-- Two files with blanks around one of them and blank pieces before, between and behind them. -/
theorem comma_lists_are_read_back_two_files :
    let names : List Text := ["core.yaml", "more names.yaml"]
    let t : Text := " ,core.yaml,\t,\u3000more names.yaml\n,"
    let host : Host := .empty
    (∀ s ∈ names, IsListItem s) ∧ IsWriting names t ∧
      (load [] [("LINTNAMES_CATALOG_FILES", t)] host).2.toOption.map catalogFiles =
        some [⟨.none, ["core.yaml"]⟩, ⟨.none, ["more names.yaml"]⟩] := by
  intro names t host
  have hnames : ∀ s ∈ names, IsListItem s := by
    decide
  have hwriting : IsWriting names t := by
    have hblank (cs : List CodePoint) (h : cs.all isBlank = true) : ∀ c ∈ cs, isBlank c = true :=
      List.all_eq_true.mp h
    refine ⟨_, .blank (hblank [' '] (by decide)) (.name (hblank [] rfl) (hblank [] rfl)
      (.blank (hblank ['\t'] (by decide)) (.name (hblank ['\u3000'] (by decide))
        (hblank ['\n'] (by decide)) (.blank (hblank [] rfl) .nil)))), by decide⟩
  have hlast : LastIs [("LINTNAMES_CATALOG_FILES", t)] Setting.catalogFiles.IsVariable t :=
    ⟨[], "LINTNAMES_CATALOG_FILES", [], rfl, by decide, List.forall_mem_nil _⟩
  obtain ⟨-, hvariable, hlist⟩ := comma_lists_are_read_back.1 names t hnames hwriting []
    [("LINTNAMES_CATALOG_FILES", t)] host
  refine ⟨hnames, hwriting, ?_⟩
  rw [hvariable (List.forall_mem_nil _) hlast, hlist [] .info rfl rfl]
  decide

end Settings

end NameCatalog
