import Mathlib
import NameCatalog.Proofs.Json.SolidCharacters
import NameCatalog.Proofs.Settings.References

/-!
# Catalog files given as a JSON list

The variable of the catalog files is always cut at its commas. A JSON list is no exception, and so
never gives the files of the list: cutting at commas and reading paths leave out only commas,
blanks, slashes and dots, while reading JSON leaves out at least the two brackets.
-/

namespace NameCatalog

/-! ## Solid characters of pieces -/

theorem solidCount_reverse (cs : List CodePoint) : solidCount cs.reverse = solidCount cs :=
  List.countP_reverse

theorem solidCount_eq_zero {cs : List CodePoint} (h : ∀ c ∈ cs, isSolid c = false) :
    solidCount cs = 0 :=
  List.countP_eq_zero.mpr fun c hc => by simp [h c hc]

theorem solidCount_dropWhile {p : CodePoint → Bool} (h : ∀ c, p c = true → isSolid c = false)
    (cs : List CodePoint) : solidCount (cs.dropWhile p) = solidCount cs := by
  have hdropped : solidCount (cs.takeWhile p) = 0 :=
    solidCount_eq_zero fun c hc => h c (List.mem_takeWhile_imp hc)
  have hwhole := congrArg solidCount (List.takeWhile_append_dropWhile (p := p) (l := cs))
  rw [solidCount_append, hdropped, Nat.zero_add] at hwhole
  exact hwhole

theorem solidCount_trimBlanks (cs : List CodePoint) :
    solidCount (Text.trimBlanks cs) = solidCount cs := by
  have hblank : ∀ c, Text.isBlank c = true → isSolid c = false := by
    intro c hc
    simp [isSolid, hc]
  rw [Text.trimBlanks, solidCount_reverse, solidCount_dropWhile hblank, solidCount_reverse,
    solidCount_dropWhile hblank]

theorem solidCount_pieces {sep : CodePoint} (h : isSolid sep = false) (cs : List CodePoint) :
    solidCount (Text.pieces sep cs).flatten = solidCount cs := by
  induction cs with
  | nil => rfl
  | cons c cs ih =>
      rw [Text.pieces, solidCount_cons, ← ih]
      by_cases hc : c = sep
      · simp [hc, h]
      · rw [if_neg hc]
        cases hp : Text.pieces sep cs with
        | nil => exact absurd hp (Text.pieces_ne_nil sep cs)
        | cons piece rest =>
            simp only [List.flatten_cons, List.cons_append]
            exact solidCount_cons c _

/-- Parts may be changed where their solid characters stay as many. -/
theorem solidCount_flatMap_congr {α : Type} {f g : α → List CodePoint} {as : List α}
    (h : ∀ a ∈ as, solidCount (f a) = solidCount (g a)) :
    solidCount (as.flatMap f) = solidCount (as.flatMap g) := by
  induction as with
  | nil => rfl
  | cons a as ih =>
      obtain ⟨ha, has⟩ := List.forall_mem_cons.mp h
      rw [List.flatMap_cons, List.flatMap_cons, solidCount_append, solidCount_append, ha, ih has]

/-- Pieces without solid characters may be left out. -/
theorem solidCount_filter {p : List CodePoint → Bool} {pieces : List (List CodePoint)}
    (h : ∀ piece ∈ pieces, p piece = false → solidCount piece = 0) :
    solidCount (pieces.filter p).flatten = solidCount pieces.flatten := by
  induction pieces with
  | nil => rfl
  | cons piece pieces ih =>
      obtain ⟨hpiece, hpieces⟩ := List.forall_mem_cons.mp h
      cases hp : p piece with
      | true =>
          rw [List.filter_cons_of_pos hp, List.flatten_cons, List.flatten_cons, solidCount_append,
            solidCount_append, ih hpieces]
      | false =>
          rw [List.filter_cons_of_neg (by simp [hp]), List.flatten_cons, solidCount_append,
            ih hpieces, hpiece hp, Nat.zero_add]

/-! ## Paths and lists with commas -/

theorem solidCountOf_map_ofList (pieces : List (List CodePoint)) :
    solidCountOf (pieces.map Text.ofList) = solidCount pieces.flatten := by
  simp [solidCountOf, List.flatMap_map]

/-- The components of a path have all solid characters of its text. -/
theorem solidCountOf_components (s : Text) :
    solidCountOf (Path.ofString s).components = solidCount s.toList := by
  rw [Path.ofString, solidCountOf_map_ofList, solidCount_filter, solidCount_pieces (by decide)]
  intro piece _ hdropped
  simp only [Bool.not_eq_false', Bool.or_eq_true, List.isEmpty_iff, beq_iff_eq] at hdropped
  rcases hdropped with rfl | rfl
  · rfl
  · decide

theorem solidCountOf_listed (t : Text) :
    solidCountOf (Settings.listed t) = solidCount t.toList := by
  rw [Settings.listed, solidCountOf_map_ofList, solidCount_filter]
  · have htrim : solidCount ((Text.pieces ',' t.toList).flatMap Text.trimBlanks) =
        solidCount ((Text.pieces ',' t.toList).flatMap id) :=
      solidCount_flatMap_congr fun piece _ => solidCount_trimBlanks piece
    rw [← List.flatMap_def, htrim, List.flatMap_id, solidCount_pieces (by decide)]
  · intro piece _ hdropped
    have hempty : piece = [] := by simpa using hdropped
    rw [hempty]
    rfl

/-- Texts of the same paths have the same solid characters. -/
theorem solidCountOf_eq_of_paths {texts others : List Text}
    (h : texts.map Path.ofString = others.map Path.ofString) :
    solidCountOf texts = solidCountOf others := by
  have hpaths (ts : List Text) : solidCount ((ts.map Path.ofString).flatMap fun p =>
      p.components.flatMap Text.toList) = solidCountOf ts := by
    rw [List.flatMap_map]
    exact solidCount_flatMap_congr fun s _ => solidCountOf_components s
  rw [← hpaths, h, hpaths]

/-! ## The variable -/

namespace Settings

open Sources

/-- No JSON text of a list is cut at its commas into paths of the list. -/
theorem map_listed_ne {t : Text} {names : List Text} (h : Json.read t = some (.texts names)) :
    (listed t).map Path.ofString ≠ names.map Path.ofString := by
  intro hsame
  have hsolid := Json.solid_read h
  have hcount := solidCountOf_eq_of_paths hsame
  rw [solidCountOf_listed] at hcount
  omega

theorem catalogFiles_load_of_find {given : List (Text × Value)}
    {environment : List (Text × Text)} {host : Host} {ss : List (Nat × EnvFile.Statement)}
    {level : Severity} {v : Value} {paths : List Path} (hfile : statements host = .ok ss)
    (hlevel : logLevelOf ⟨given, environment, EnvFile.variablesOf environment ss⟩ = .ok level)
    (hfind : find ⟨given, environment, EnvFile.variablesOf environment ss⟩ .catalogFiles = some v)
    (hread : readFiles v = .ok paths) :
    (load given environment host).2.map catalogFiles = .ok paths := by
  simp only [load, hfile, map_mapError, catalogFiles_ofSources hlevel, catalogFilesOf, hfind, hread]
  rfl

/-- A variable that holds a JSON list of paths is cut at its commas like any other text, and the
files are never those of the list; given as a value, the list has its own paths. -/
theorem json_list_is_cut_at_commas {environment : List (Text × Text)} {host : Host}
    {ss : List (Nat × EnvFile.Statement)} {t : Text} {names : List Text}
    (hfile : statements host = .ok ss) (hlevel : HasLevel environment host)
    (hvariable : lookupVariable environment Setting.catalogFiles.variableName = some t)
    (hjson : Json.read t = some (.texts names)) :
    ∃ cut given : List Path,
      (load [] environment host).2.map catalogFiles = .ok cut ∧
        (load [("catalog_files", .list (names.map .text))] environment host).2.map catalogFiles =
          .ok given ∧
        cut = (listed t).map Path.ofString ∧ given = names.map Path.ofString ∧ cut ≠ given := by
  obtain ⟨level, hlevel⟩ := hlevel ss hfile
  have hsame : logLevelOf ⟨[("catalog_files", .list (names.map .text))], environment,
      EnvFile.variablesOf environment ss⟩ = .ok level := by
    rw [← hlevel]
    rfl
  refine ⟨_, _, ?_, ?_, rfl, rfl, map_listed_ne hjson⟩
  · exact catalogFiles_load_of_find hfile hlevel (find_of_lookupVariable hvariable _)
      (readFiles_text t)
  · exact catalogFiles_load_of_find hfile hsame rfl (readFiles_list names)

/-- A list of two files, one of them with a blank in its name. -/
theorem json_list_is_cut_at_commas_two_files :
    let names : List Text := ["core.yaml", "more names.yaml"]
    let t : Text := "[\"core.yaml\", \"more names.yaml\"]"
    let environment : List (Text × Text) := [("LINTNAMES_CATALOG_FILES", t)]
    let host : Host := .empty
    Json.read t = some (.texts names) ∧
      ∃ cut given : List Path,
        (load [] environment host).2.map catalogFiles = .ok cut ∧
          (load [("catalog_files", .list (names.map .text))] environment host).2.map
            catalogFiles = .ok given ∧
          cut = (listed t).map Path.ofString ∧ given = names.map Path.ofString ∧ cut ≠ given := by
  intro names t environment host
  have hfile : statements host = .ok [] := rfl
  have hlevel : HasLevel environment host := by
    intro ss hss
    cases hss
    exact ⟨.info, rfl⟩
  have hjson : Json.read t = some (.texts names) := by
    cbv
  exact ⟨hjson, json_list_is_cut_at_commas hfile hlevel (by decide +kernel) hjson⟩

/-- The list of one file is read as one path with the brackets and quotes in it. -/
theorem json_list_is_one_path :
    let host : Host := .empty
    (load [] [("LINTNAMES_CATALOG_FILES", "[\"core.yaml\"]")] host).2.toOption.map catalogFiles =
        some [⟨.none, ["[\"core.yaml\"]"]⟩] ∧
      (load [("catalog_files", .list [.text "core.yaml"])] [] host).2.toOption.map catalogFiles =
        some [⟨.none, ["core.yaml"]⟩] := by
  decide +kernel

end Settings

end NameCatalog
