import NameCatalog.Proofs.Settings.CommaLists

/-!
# Configured catalog files

A list of file names is configured by joining the names with commas. The names come back from the
variable's text when none of them is empty, holds a comma, or begins or ends with a blank.
-/

namespace NameCatalog

/-- A name that can be told from its neighbours in a list with commas, and from an option. -/
structure IsFileName (s : Text) : Prop where
  ne_empty : s ≠ ""
  comma_not_mem : .char ',' ∉ s.toList
  first_not_blank : ∀ c ∈ s.toList.head?, Text.isBlank c = false
  last_not_blank : ∀ c ∈ s.toList.getLast?, Text.isBlank c = false
  first_ne_dash : s.toList.head? ≠ some (.char '-')

theorem isFileName_iff {s : Text} :
    IsFileName s ↔ IsListItem s ∧ s.toList.head? ≠ some (.char '-') := by
  constructor
  · rintro ⟨hempty, hcomma, hfirst, hlast, hdash⟩
    exact ⟨⟨hempty, hcomma, hfirst, hlast⟩, hdash⟩
  · rintro ⟨⟨hempty, hcomma, hfirst, hlast⟩, hdash⟩
    exact ⟨hempty, hcomma, hfirst, hlast, hdash⟩

instance (s : Text) : Decidable (IsFileName s) := decidable_of_iff' _ isFileName_iff

example : IsFileName "core names.yaml" ∧ ¬ IsFileName "core,more.yaml" := by decide

namespace Settings

theorem writes_map_toList (names : List Text) : Writes names (names.map Text.toList) := by
  induction names with
  | nil => exact .nil
  | cons s names ih =>
      have hname := Writes.name (s := s) (List.forall_mem_nil _) (List.forall_mem_nil _) ih
      rwa [List.nil_append, List.append_nil] at hname

theorem isWriting_join (names : List Text) : IsWriting names (Text.join "," names) :=
  ⟨_, writes_map_toList names, rfl⟩

theorem listed_join {names : List Text} (h : ∀ s ∈ names, IsFileName s) :
    listed (Text.join "," names) = names :=
  (listed_eq_iff fun s hs => (isFileName_iff.mp (h s hs)).1).mpr (isWriting_join names)

/-- The variables with a list of catalog files among them. -/
def withCatalogFiles (vars : List (Text × Text)) (names : List Text) :
    List (Text × Text) :=
  vars ++ [(("LINTNAMES_CATALOG_FILES" : Text), Text.join "," names)]

theorem lookup_catalogFiles (vars : List (Text × Text)) (names : List Text) :
    Sources.lookupVariable (withCatalogFiles vars names) Setting.catalogFiles.variableName =
      some (Text.join "," names) := by
  have hname : Text.lowerCase "LINTNAMES_CATALOG_FILES" = Setting.catalogFiles.variableName := by
    decide
  simp [Sources.lookupVariable, withCatalogFiles, hname]

/-- The level of the log is valid, as far as the settings file can be read at all. -/
def HasLevel (environment : List (Text × Text)) (host : Host) : Prop :=
  ∀ ss, statements host = .ok ss →
    ∃ level, logLevelOf ⟨[], environment, EnvFile.variablesOf environment ss⟩ = .ok level

/-- With a valid level only the settings file can fail. The configured files are those that were
put into the variable, whatever else is set. -/
theorem catalogFiles_load {vars : List (Text × Text)} {names : List Text} {host : Host}
    (h : ∀ s ∈ names, IsFileName s) (hlevel : HasLevel (withCatalogFiles vars names) host) :
    (load [] (withCatalogFiles vars names) host).2.map catalogFiles =
      (statements host).map fun _ => names.map Path.ofString := by
  cases hstatements : statements host with
  | error f =>
      rw [load, hstatements]
      rfl
  | ok ss =>
      obtain ⟨level, hlevel⟩ := hlevel ss hstatements
      have hread : ofSources ⟨[], withCatalogFiles vars names,
          EnvFile.variablesOf (withCatalogFiles vars names) ss⟩ =
            .ok ⟨level, names.map Path.ofString⟩ := by
        rw [ofSources_eq_ok_iff, catalogFilesOf_eq,
          Sources.find_of_lookupVariable (lookup_catalogFiles vars names), filesFrom,
          readFiles_text, listed_join h]
        exact ⟨hlevel, rfl⟩
      simp only [load, hstatements, hread]
      rfl

end Settings

end NameCatalog
