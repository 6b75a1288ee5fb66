import NameCatalog.Proofs.CommandLine.Words

/-!
# Command lines of listings

The options of a listing name further files and a format, each with its value in the same word or in
the next. The words are looked at twice, first as words of the program, to which they mean nothing,
and then as words of the command.
-/

namespace NameCatalog.CommandLine

/-- An option of a listing; its value is attached to it or stands in the next word. -/
inductive ListingOption where
  | file (attached : Bool) (name : Text)
  | format (attached : Bool) (listing : Listing)

namespace ListingOption

def flag : ListingOption → Flag
  | file _ _ => .file
  | format _ _ => .format

def spelling : ListingOption → Text
  | file _ _ => "--file"
  | format _ _ => "--format"

def value : ListingOption → Text
  | file _ name => name
  | format _ listing => listing.word

def isAttached : ListingOption → Bool
  | file attached _ => attached
  | format attached _ => attached

def texts (o : ListingOption) : List Text :=
  if o.isAttached then [o.spelling ++ "=" ++ o.value] else [o.spelling, o.value]

def file? : ListingOption → Option Text
  | file _ name => some name
  | format _ _ => none

def listing? : ListingOption → Option Listing
  | file _ _ => none
  | format _ listing => some listing

/-- The files that are named, in order. -/
def files (os : List ListingOption) : List Text := os.filterMap file?

/-- The last format that is named counts. -/
def listing (os : List ListingOption) : Listing := (os.filterMap listing?).getLast?.getD .text

end ListingOption

/-- The words of a listing with the given options. -/
def listingTexts (verbose : Bool) (os : List ListingOption) : List Text :=
  (if verbose then [("--verbose" : Text)] else []) ++
    Command.catalog.word :: os.flatMap ListingOption.texts

/-! ## Options as words -/

namespace ListingOption

open Word

/-- What the words of an option are to the command. -/
def words (o : ListingOption) : List Word :=
  if o.isAttached then
    [⟨o.spelling ++ "=" ++ o.value, .flag o.flag true (some o.value.toList)⟩]
  else [⟨o.spelling, .flag o.flag true none⟩, ⟨o.value, .argument⟩]

theorem exists_toList_spelling (o : ListingOption) :
    ∃ c cs, o.spelling.toList = .char '-' :: .char '-' :: c :: cs ∧
      .char '=' ∉ o.spelling.toList := by
  have hfile : Text.toList "--file" =
      .char '-' :: .char '-' :: .char 'f' :: "ile".toList.map .char ∧
      .char '=' ∉ Text.toList "--file" := by
    decide
  have hformat : Text.toList "--format" =
        .char '-' :: .char '-' :: .char 'f' :: "ormat".toList.map .char ∧
      .char '=' ∉ Text.toList "--format" := by
    decide
  cases o with
  | file attached name => exact ⟨_, _, hfile⟩
  | format attached listing => exact ⟨_, _, hformat⟩

theorem flag?_spelling (o : ListingOption) :
    (Scope.command .catalog).flag? o.spelling = some o.flag := by
  cases o with
  | file attached name => exact show Scope.flag? (.command .catalog) "--file" = some .file by decide
  | format attached listing =>
      exact show Scope.flag? (.command .catalog) "--format" = some .format by decide

/-- No flag of the program begins like an option of the command. -/
theorem program_spellings (o : ListingOption) :
    Scope.program.spellings.filter (fun s => o.spelling.toList.isPrefixOf s.1.toList) = [] := by
  cases o with
  | file attached name =>
      exact show Scope.program.spellings.filter
        (fun s => (Text.toList "--file").isPrefixOf s.1.toList) = [] by decide
  | format attached listing =>
      exact show Scope.program.spellings.filter
        (fun s => (Text.toList "--format").isPrefixOf s.1.toList) = [] by decide

theorem program_flag?_spelling (o : ListingOption) : Scope.program.flag? o.spelling = none := by
  rw [Scope.flag?, List.lookup_eq_none_iff]
  intro s hs
  have hstart := List.filter_eq_nil_iff.mp o.program_spellings s hs
  rw [bne_iff_ne]
  intro h
  simp [h] at hstart

theorem kindOf_spelling (o : ListingOption) :
    kindOf (.command .catalog) o.spelling = .ok (.flag o.flag true none) := by
  obtain ⟨c, cs, hlist, -⟩ := o.exists_toList_spelling
  simp [kindOf, hlist, o.flag?_spelling, isLong]

theorem kindOf_attached (o : ListingOption) :
    kindOf (.command .catalog) (o.spelling ++ "=" ++ o.value) =
      .ok (.flag o.flag true (some o.value.toList)) := by
  obtain ⟨c, cs, hlist, hequals⟩ := o.exists_toList_spelling
  have hnone : (Scope.command .catalog).flag? (o.spelling ++ "=" ++ o.value) = none :=
    flag?_eq_none (by simp)
  simp only [kindOf, toList_attached, hnone, splitEquals_append hequals, Text.ofList_toList,
    o.flag?_spelling]
  simp [hlist, isLong]

/-- To the program the words of an option mean nothing. -/
theorem exists_kindOf_program (o : ListingOption) :
    (∃ k, kindOf .program o.spelling = .ok k) ∧
      ∃ k, kindOf .program (o.spelling ++ "=" ++ o.value) = .ok k := by
  obtain ⟨c, cs, hlist, hequals⟩ := o.exists_toList_spelling
  have hflag := o.program_flag?_spelling
  refine ⟨?_, ?_⟩
  · have hsplit := splitEquals_of_not_mem hequals
    refine exists_kindOf hflag ?_ (candidates_eq_nil ?_ hsplit o.program_spellings)
    · rw [hsplit, Text.ofList_toList, hflag]
    · simp [hlist, isLong]
  · have hsplit : splitEquals (o.spelling ++ "=" ++ o.value).toList =
        (o.spelling.toList, some o.value.toList) := by
      rw [toList_attached, splitEquals_append hequals]
    refine exists_kindOf (flag?_eq_none (by simp)) ?_
      (candidates_eq_nil ?_ hsplit o.program_spellings)
    · rw [hsplit, Text.ofList_toList, hflag]
    · simp [hlist, isLong]

theorem separator_not_attached (o : ListingOption) :
    o.spelling ++ "=" ++ o.value ≠ separatorText := by
  intro h
  have hmem : .char '=' ∈ (o.spelling ++ "=" ++ o.value).toList := by simp
  rw [h] at hmem
  exact absurd hmem (by decide)

theorem separator_not_spelling (o : ListingOption) : o.spelling ≠ separatorText := by
  obtain ⟨c, cs, hlist, -⟩ := o.exists_toList_spelling
  intro h
  rw [h] at hlist
  simp [separatorText] at hlist

/-- The command takes each option for what it is. -/
theorem reads_words {o : ListingOption} (h : o.value.toList.head? ≠ some (.char '-')) :
    List.Forall₂ (Reads (.command .catalog)) o.texts o.words := by
  unfold texts words
  split
  · exact .cons ⟨o.separator_not_attached, o.kindOf_attached, rfl⟩ .nil
  · exact .cons ⟨o.separator_not_spelling, o.kindOf_spelling, rfl⟩ (.cons (.argument _ h) .nil)

theorem exists_reads_program {o : ListingOption} (h : o.value.toList.head? ≠ some (.char '-')) :
    ∃ words, List.Forall₂ (Reads .program) o.texts words := by
  obtain ⟨⟨k, hk⟩, l, hl⟩ := o.exists_kindOf_program
  unfold texts
  split
  · exact ⟨[⟨_, l⟩], .cons ⟨o.separator_not_attached, hl, rfl⟩ .nil⟩
  · exact ⟨[⟨_, k⟩, _], .cons ⟨o.separator_not_spelling, hk, rfl⟩ (.cons (.argument _ h) .nil)⟩

end ListingOption

/-! ## Reading them -/

namespace ListingOption

/-- What an option leaves among the flags. -/
def given (o : ListingOption) : Flag × Value := (o.flag, .text o.value)

theorem takesValue_flag (o : ListingOption) : o.flag.takesValue = true := by
  cases o <;> rfl

theorem flag_ne_help (o : ListingOption) : o.flag ≠ .help := by
  cases o <;> exact nofun

theorem admits_value (o : ListingOption) : o.flag.admits (.text o.value) = true := by
  cases o with
  | file attached name => rfl
  | format attached listing =>
      exact show Flag.admits .format (.text listing.word) = true by cases listing <;> decide

theorem value_ne_separator {o : ListingOption} (h : o.value.toList.head? ≠ some (.char '-')) :
    o.value ≠ Word.separatorText :=
  (Word.Reads.argument .program h).ne_separator

theorem readCommand_words {o : ListingOption} (h : o.value.toList.head? ≠ some (.char '-'))
    (g : Given) (rest : List Word) :
    readCommand (.command .catalog) g .start false (o.words ++ rest) =
      readCommand (.command .catalog) { g with flags := g.flags ++ [o.given] } .start false rest :=
        by
  unfold words
  split
  · have hword : Cluster.ofWord (.command .catalog) (nextArgument rest) o.flag true
        (some o.value.toList) = .ok ⟨[o.given], false⟩ :=
      Cluster.ofAttached_value o.takesValue_flag (value_ne_separator h) _ _ _
    have htake := g.take_singleton (.command .catalog) o.flag_ne_help o.admits_value
    simp [readCommand, hword, given, htake]
  · exact readCommand_flag_value _ o.takesValue_flag o.flag_ne_help o.admits_value _ _ _ _ _

theorem readCommand_flatMap_words {os : List ListingOption}
    (h : ∀ o ∈ os, o.value.toList.head? ≠ some (.char '-')) (g : Given) :
    readCommand (.command .catalog) g .start false (os.flatMap words) =
      .ok { g with flags := g.flags ++ os.map given } := by
  induction os generalizing g with
  | nil => simp [readCommand]
  | cons o os ih =>
      rw [List.flatMap_cons, readCommand_words (h o (List.mem_cons_self ..)),
        ih fun x hx => h x (List.mem_cons_of_mem _ hx)]
      simp

theorem reads_flatMap_words {os : List ListingOption}
    (h : ∀ o ∈ os, o.value.toList.head? ≠ some (.char '-')) :
    List.Forall₂ (Word.Reads (.command .catalog)) (os.flatMap texts) (os.flatMap words) := by
  have hsame : List.Forall₂ (fun o x => o ∈ os ∧ o = x) os os :=
    List.forall₂_same.mpr fun o ho => ⟨ho, rfl⟩
  refine List.rel_flatMap hsame ?_
  rintro o _ ⟨ho, rfl⟩
  exact reads_words (h o ho)

theorem commandGiven_texts {os : List ListingOption}
    (h : ∀ o ∈ os, o.value.toList.head? ≠ some (.char '-')) :
    commandGiven .catalog (os.flatMap texts) = .ok ⟨os.map given, [], []⟩ := by
  have hwords := Word.ofTexts_eq_ok (reads_flatMap_words h)
  have hgiven := readCommand_flatMap_words h .empty
  simp only [commandGiven, hwords, mapError_ok]
  change (readCommand (.command .catalog) .empty .start false (os.flatMap words) >>= _) = _
  rw [hgiven]
  rfl

theorem valuesOf_file (os : List ListingOption) :
    Given.valuesOf ⟨os.map given, [], []⟩ .file = (files os).map .text := by
  rw [Given.valuesOf, List.filterMap_map, files, List.map_filterMap]
  refine List.filterMap_congr ?_
  intro o _
  cases o <;> rfl

theorem valuesOf_format (os : List ListingOption) :
    Given.valuesOf ⟨os.map given, [], []⟩ .format =
      (os.filterMap listing?).map fun l => .text l.word := by
  rw [Given.valuesOf, List.filterMap_map, List.map_filterMap]
  refine List.filterMap_congr ?_
  intro o _
  cases o <;> rfl

theorem taskOf_given (os : List ListingOption) :
    Request.taskOf ⟨os.map given, [], []⟩ .catalog =
      .catalog ((files os).map .text) (listing os) := by
  have hlisting : Request.listingOf ⟨os.map given, [], []⟩ = listing os := by
    rw [Request.listingOf, valuesOf_format, listing, List.getLast?_map]
    cases (os.filterMap listing?).getLast? with
    | none => rfl
    | some l => simp [Listing.ofValue?]
  rw [Request.taskOf, valuesOf_file, hlisting]

theorem exists_reads_program_flatMap {os : List ListingOption}
    (h : ∀ o ∈ os, o.value.toList.head? ≠ some (.char '-')) :
    ∃ words, List.Forall₂ (Word.Reads .program) (os.flatMap texts) words := by
  induction os with
  | nil => exact ⟨[], .nil⟩
  | cons o os ih =>
      obtain ⟨ws, hws⟩ := exists_reads_program (h o (List.mem_cons_self ..))
      obtain ⟨vs, hvs⟩ := ih fun x hx => h x (List.mem_cons_of_mem _ hx)
      exact ⟨ws ++ vs, List.rel_append hws hvs⟩

end ListingOption

/-- The program finds its command and leaves all options to it. -/
theorem exists_readProgram_listing (verbose : Bool) {os : List ListingOption}
    (h : ∀ o ∈ os, o.value.toList.head? ≠ some (.char '-')) :
    ∃ words, Word.ofTexts .program (listingTexts verbose os) = .ok words ∧
      readProgram .empty words =
        .ok (⟨if verbose then [(.verbose, .null)] else [], [], []⟩,
          some (Command.catalog.word, os.flatMap ListingOption.texts)) := by
  obtain ⟨ws, hws⟩ := ListingOption.exists_reads_program_flatMap h
  have hcommand : Word.Reads .program Command.catalog.word ⟨Command.catalog.word, .argument⟩ :=
    .argument _ (by decide)
  have hbehind := List.Forall₂.cons hcommand hws
  cases verbose with
  | false =>
      refine ⟨_, Word.ofTexts_eq_ok hbehind, ?_⟩
      simp [readProgram, Word.map_text_eq hws, Given.empty]
  | true =>
      refine ⟨_, Word.ofTexts_eq_ok (.cons Word.reads_verbose hbehind), ?_⟩
      simp [readProgram, Word.map_text_eq hws, Given.empty, Cluster.ofWord, Cluster.ofFlag,
        Flag.takesValue, Given.take, Flag.admits]

theorem Request.ofArguments_listingTexts (verbose : Bool) {os : List ListingOption}
    (h : ∀ o ∈ os, o.value.toList.head? ≠ some (.char '-')) :
    ofArguments (listingTexts verbose os) =
      .ok ⟨false, verbose,
        .catalog ((ListingOption.files os).map .text) (ListingOption.listing os)⟩ := by
  obtain ⟨words, hwords, hprogram⟩ := exists_readProgram_listing verbose h
  have hgiven := ListingOption.commandGiven_texts h
  refine bind_eq_ok_iff.mpr ⟨words, by rw [hwords, mapError_ok], ?_⟩
  refine bind_eq_ok_iff.mpr ⟨_, hprogram, ?_⟩
  simp only [Command.ofWord?_word, hgiven]
  refine bind_eq_ok_iff.mpr ⟨_, rfl, ?_⟩
  simp only [List.nil_append, ListingOption.taskOf_given]
  cases verbose <;> rfl

end NameCatalog.CommandLine
