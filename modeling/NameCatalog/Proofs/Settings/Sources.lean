import NameCatalog.Proofs.Outcome
import NameCatalog.Proofs.Text.LetterCase
import NameCatalog.Settings.Load

/-!
# Where settings come from

A setting is read from the first source that gives it, under its own name only. What the other
setting is, where it comes from and whether it is valid has no part in it.
-/

namespace NameCatalog

/-- Names of variables that set the setting: its variable's name, each letter small or capital. -/
def Setting.IsVariable (s : Setting) (name : Text) : Prop :=
  name.toList.map CodePoint.toLower = s.variableName.toList

instance (s : Setting) : DecidablePred s.IsVariable := fun name =>
  inferInstanceAs (Decidable (name.toList.map CodePoint.toLower = s.variableName.toList))

theorem Setting.lowerCase_eq_iff {s : Setting} {name : Text} :
    Text.lowerCase name = s.variableName ↔ s.IsVariable name := by
  apply Text.lowerCase_eq_iff
  apply List.all_eq_true.mp
  cases s with
  | logLevel => decide
  | catalogFiles => decide

/-- The settings have the same value for the setting. -/
def Setting.Same (s : Setting) (st other : Settings) : Prop :=
  match s with
  | logLevel => st.logLevel = other.logLevel
  | catalogFiles => st.catalogFiles = other.catalogFiles

namespace Sources

/-! ## The last of a name -/

/-- The last value of a name of the given kind. -/
def LastIs {α : Type} (vars : List (Text × α)) (isName : Text → Prop) (a : α) : Prop :=
  ∃ before name after, vars = before ++ (name, a) :: after ∧ isName name ∧
    ∀ v ∈ after, ¬ isName v.1

/-- The variables whose names are of the given kind. -/
def named {α : Type} (isName : Text → Prop) [DecidablePred isName] (vars : List (Text × α)) :
    List (Text × α) :=
  vars.filter fun v => isName v.1

def lastNamed? {α : Type} (isName : Text → Prop) [DecidablePred isName]
    (vars : List (Text × α)) : Option α :=
  (named isName vars).getLast?.map Prod.snd

section

variable {α : Type} {vars : List (Text × α)} {a : α} {isName : Text → Prop}
  [DecidablePred isName]

theorem lastNamed?_eq_some_iff : lastNamed? isName vars = some a ↔ LastIs vars isName a := by
  rw [lastNamed?, named, List.getLast?_filter]
  constructor
  · intro h
    obtain ⟨⟨name, value⟩, hfind, rfl⟩ := Option.map_eq_some_iff.mp h
    obtain ⟨hname, after, before, hsplit, hafter⟩ := List.find?_eq_some_iff_append.mp hfind
    refine ⟨before.reverse, name, after.reverse, ?_, of_decide_eq_true hname, ?_⟩
    · rw [List.reverse_eq_iff.mp hsplit]
      simp
    · intro v hv
      simpa using hafter v (List.mem_reverse.mp hv)
  · rintro ⟨before, name, after, rfl, hname, hafter⟩
    refine Option.map_eq_some_iff.mpr ⟨(name, a), ?_, rfl⟩
    refine List.find?_eq_some_iff_append.mpr ⟨decide_eq_true hname, ?_⟩
    refine ⟨after.reverse, before.reverse, by simp, ?_⟩
    intro v hv
    simpa using hafter v (List.mem_reverse.mp hv)

theorem lastNamed?_eq_none_iff : lastNamed? isName vars = none ↔ ∀ v ∈ vars, ¬ isName v.1 := by
  simp [lastNamed?, named]

theorem lookupVariable_eq (s : Setting) :
    lookupVariable vars s.variableName = lastNamed? s.IsVariable vars := by
  simp only [lookupVariable, lastNamed?, named, List.getLast?_filter, Setting.lowerCase_eq_iff]

theorem lookup_reverse_eq (name : Text) :
    vars.reverse.lookup name = lastNamed? (· = name) vars := by
  rw [lastNamed?, named, List.getLast?_filter]
  induction vars.reverse with
  | nil => rfl
  | cons v vs ih =>
      rw [List.lookup_cons, List.find?_cons, ih]
      by_cases h : v.1 = name
      · simp [h]
      · simp [h, beq_false_of_ne (Ne.symm h)]

theorem lookupVariable_cons (v : Text × α) (vars : List (Text × α)) (name : Text) :
    lookupVariable (v :: vars) name =
      (lookupVariable vars name).or (if Text.lowerCase v.1 = name then some v.2 else none) := by
  simp only [lookupVariable, List.reverse_cons, List.find?_append]
  cases vars.reverse.find? fun w => Text.lowerCase w.1 = name with
  | some w => rfl
  | none => by_cases h : Text.lowerCase v.1 = name <;> simp [h]

/-- A variable of another name may come and go. -/
theorem named_append_cons {before after : List (Text × α)} {name : Text} (h : ¬ isName name) :
    named isName (before ++ (name, a) :: after) = named isName (before ++ after) := by
  simp [named, h]

end

/-! ## The first source decides -/

/-- What a setting is read from: the value that is given for it, else a variable of the environment,
else one of the settings file, which may have no value, else nothing. -/
inductive Decides (src : Sources) (s : Setting) : Option Value → Prop
  | given {v : Value} (h : LastIs src.given (· = s.word) v) : Decides src s (some v)
  | environment {t : Text} (hgiven : ∀ v ∈ src.given, v.1 ≠ s.word)
      (h : LastIs src.environment s.IsVariable t) : Decides src s (some (.text t))
  | file {t : Text} (hgiven : ∀ v ∈ src.given, v.1 ≠ s.word)
      (henvironment : ∀ v ∈ src.environment, ¬ s.IsVariable v.1)
      (h : LastIs src.file s.IsVariable (some t)) : Decides src s (some (.text t))
  | valueless (hgiven : ∀ v ∈ src.given, v.1 ≠ s.word)
      (henvironment : ∀ v ∈ src.environment, ¬ s.IsVariable v.1)
      (h : LastIs src.file s.IsVariable none) : Decides src s none
  | nothing (hgiven : ∀ v ∈ src.given, v.1 ≠ s.word)
      (henvironment : ∀ v ∈ src.environment, ¬ s.IsVariable v.1)
      (hfile : ∀ v ∈ src.file, ¬ s.IsVariable v.1) : Decides src s none

variable {src other : Sources} {s : Setting}

theorem find_eq (src : Sources) (s : Setting) :
    src.find s =
      (lastNamed? (· = s.word) src.given).or
        (((lastNamed? s.IsVariable src.environment).map .text).or
          ((lastNamed? s.IsVariable src.file).join.map .text)) := by
  rw [find, lookup_reverse_eq, lookupVariable_eq, lookupVariable_eq]

theorem decides_iff {v? : Option Value} : Decides src s v? ↔ src.find s = v? := by
  rw [find_eq]
  constructor
  · intro h
    cases h with
    | given h => rw [lastNamed?_eq_some_iff.mpr h, Option.some_or]
    | environment hgiven h =>
        rw [lastNamed?_eq_none_iff.mpr hgiven, lastNamed?_eq_some_iff.mpr h]
        rfl
    | file hgiven henvironment h =>
        rw [lastNamed?_eq_none_iff.mpr hgiven, lastNamed?_eq_none_iff.mpr henvironment,
          lastNamed?_eq_some_iff.mpr h]
        rfl
    | valueless hgiven henvironment h =>
        rw [lastNamed?_eq_none_iff.mpr hgiven, lastNamed?_eq_none_iff.mpr henvironment,
          lastNamed?_eq_some_iff.mpr h]
        rfl
    | nothing hgiven henvironment hfile =>
        rw [lastNamed?_eq_none_iff.mpr hgiven, lastNamed?_eq_none_iff.mpr henvironment,
          lastNamed?_eq_none_iff.mpr hfile]
        rfl
  · rintro rfl
    -- each source is asked only when those in front of it give nothing
    cases hgiven : lastNamed? (· = s.word) src.given with
    | some v => exact .given (lastNamed?_eq_some_iff.mp hgiven)
    | none =>
        have hgiven := lastNamed?_eq_none_iff.mp hgiven
        cases henvironment : lastNamed? s.IsVariable src.environment with
        | some t => exact .environment hgiven (lastNamed?_eq_some_iff.mp henvironment)
        | none =>
            have henvironment := lastNamed?_eq_none_iff.mp henvironment
            cases hfile : lastNamed? s.IsVariable src.file with
            | none => exact .nothing hgiven henvironment (lastNamed?_eq_none_iff.mp hfile)
            | some t? =>
                have hfile := lastNamed?_eq_some_iff.mp hfile
                cases t? with
                | some t => exact .file hgiven henvironment hfile
                | none => exact .valueless hgiven henvironment hfile

theorem find_of_lookupVariable {environment : List (Text × Text)} {text : Text}
    (h : lookupVariable environment s.variableName = some text)
    (file : List (Text × Option Text)) :
    find ⟨[], environment, file⟩ s = some (.text text) := by
  rw [lookupVariable_eq, lastNamed?_eq_some_iff] at h
  exact decides_iff.mp (.environment (List.forall_mem_nil _) h)

/-- The sources give the setting in the same way. Other names may differ at will. -/
structure AgreeOn (s : Setting) (src other : Sources) : Prop where
  given : named (· = s.word) src.given = named (· = s.word) other.given
  environment : named s.IsVariable src.environment = named s.IsVariable other.environment
  file : named s.IsVariable src.file = named s.IsVariable other.file

theorem AgreeOn.find_eq (h : AgreeOn s src other) : src.find s = other.find s := by
  simp only [Sources.find_eq, lastNamed?, h.given, h.environment, h.file]

end Sources

namespace Settings

open Sources

/-! ## Each setting by itself -/

def levelFrom : Option Value → Except (List SettingFault) Severity
  | some v => readLevel v
  | none => .ok defaultLevel

def filesFrom : Option Value → Except (List SettingFault) (List Path)
  | some v => readFiles v
  | none => .ok []

theorem logLevelOf_eq (src : Sources) : logLevelOf src = levelFrom (src.find .logLevel) := by
  rw [logLevelOf]
  cases src.find .logLevel with
  | some v => rfl
  | none => rfl

theorem catalogFilesOf_eq (src : Sources) :
    catalogFilesOf src = filesFrom (src.find .catalogFiles) := by
  rw [catalogFilesOf]
  cases src.find .catalogFiles with
  | some v => rfl
  | none => rfl

theorem ofSources_congr {src other : Sources} (h : ∀ s, src.find s = other.find s) :
    ofSources src = ofSources other := by
  simp only [ofSources, logLevelOf_eq, catalogFilesOf_eq, h]

def faults {α : Type} (r : Except (List SettingFault) α) : List SettingFault :=
  (fault? r).getD []

/-- The faults that are reported for one setting. -/
def faultsOn {α : Type} (s : Setting) (r : Except (List SettingFault) α) : List SettingFault :=
  (faults r).filter (·.place.1 = s)

theorem ofSources_eq_ok_iff {src : Sources} {st : Settings} :
    ofSources src = .ok st ↔
      logLevelOf src = .ok st.logLevel ∧ catalogFilesOf src = .ok st.catalogFiles := by
  obtain ⟨level, files⟩ := st
  rw [ofSources]
  cases logLevelOf src with
  | error faults => cases catalogFilesOf src <;> simp
  | ok level => cases catalogFilesOf src <;> simp

theorem load_eq_ok_iff {given : List (Text × Value)} {environment : List (Text × Text)}
    {host : Host} {st : Settings} :
    (load given environment host).2 = .ok st ↔ ∃ ss, statements host = .ok ss ∧
      ofSources ⟨given, environment, EnvFile.variablesOf environment ss⟩ = .ok st := by
  unfold load
  cases statements host with
  | error f => simp
  | ok ss => simp [mapError_eq_ok_iff]

theorem statements_eq_ok_or_error (host : Host) :
    (∃ ss, statements host = .ok ss) ∨ (∃ f, statements host = .error (.encoding f)) ∨
      ∃ number reason, host.found filePath = .unreadable number reason ∧
        statements host = .error (.unreadable filePath.toString number reason) := by
  unfold statements
  cases hfound : host.found filePath with
  | file bytes =>
      dsimp only
      cases Text.Utf8.decode bytes with
      | ok cs => exact .inl ⟨_, rfl⟩
      | error f => exact .inr (.inl ⟨f, rfl⟩)
  | unreadable number reason => exact .inr (.inr ⟨number, reason, rfl, rfl⟩)
  | _ => exact .inl ⟨_, rfl⟩

/-- Only a settings file that is there and cannot be read breaks a run off. -/
theorem load_breaks_off_iff {given : List (Text × Value)} {environment : List (Text × Text)}
    {host : Host} {f : SettingsFault} :
    (load given environment host).2 = .error f ∧ f.isReported = false ↔
      ∃ number reason, host.found filePath = .unreadable number reason ∧
        f = .unreadable filePath.toString number reason := by
  constructor
  · rintro ⟨hload, hbroken⟩
    unfold load at hload
    rcases statements_eq_ok_or_error host with
      ⟨ss, hss⟩ | ⟨g, hg⟩ | ⟨number, reason, hfound, hfault⟩
    · rw [hss] at hload
      obtain ⟨faults, -, rfl⟩ := mapError_eq_error_iff.mp hload
      cases hbroken
    · rw [hg] at hload
      cases hload
      cases hbroken
    · rw [hfault] at hload
      cases hload
      exact ⟨number, reason, hfound, rfl⟩
  · rintro ⟨number, reason, hfound, rfl⟩
    have hfault : statements host = .error (.unreadable filePath.toString number reason) := by
      rw [statements, hfound]
    rw [load, hfault]
    exact ⟨rfl, rfl⟩

theorem faults_ofSources (src : Sources) :
    faults (ofSources src) = faults (logLevelOf src) ++ faults (catalogFilesOf src) := by
  rw [ofSources]
  cases logLevelOf src with
  | error faults =>
      cases catalogFilesOf src with
      | error more => rfl
      | ok files => exact (List.append_nil faults).symm
  | ok level =>
      cases catalogFilesOf src with
      | error more => rfl
      | ok files => rfl

theorem setting_of_mem_faults_levelText {v : Value} :
    ∀ f ∈ faults (levelText v), f.place.1 = .logLevel := by
  intro f hf
  cases v with
  | text s => cases hf
  | bytes bs =>
      rw [levelText] at hf
      cases htext : Text.Utf8.decode bs with
      | ok cs =>
          rw [htext] at hf
          cases hf
      | error g =>
          rw [htext] at hf
          obtain rfl := List.mem_singleton.mp hf
          rfl
  | _ =>
      obtain rfl := List.mem_singleton.mp hf
      rfl

theorem setting_of_mem_faults_levelFrom {v? : Option Value} :
    ∀ f ∈ faults (levelFrom v?), f.place.1 = .logLevel := by
  intro f hf
  cases v? with
  | none => cases hf
  | some v =>
      rw [levelFrom, readLevel] at hf
      cases htext : levelText v with
      | error g =>
          have htexts := setting_of_mem_faults_levelText (v := v)
          rw [htext] at hf htexts
          exact htexts f hf
      | ok s =>
          rw [htext] at hf
          cases hword : Severity.ofWord? (Text.upperCase s) with
          | some level => simp [bind, Except.bind, hword, faults, fault?] at hf
          | none =>
              simp only [bind, Except.bind, hword] at hf
              obtain rfl := List.mem_singleton.mp hf
              rfl

theorem setting_of_mem_pathsFrom (i : Nat) (items : List Value) :
    ∀ f ∈ (pathsFrom i items).1, f.place.1 = .catalogFiles := by
  induction items generalizing i with
  | nil => exact List.forall_mem_nil _
  | cons v items ih =>
      cases v with
      | text t => exact ih (i + 1)
      | path p => exact ih (i + 1)
      | _ => exact List.forall_mem_cons.mpr ⟨rfl, ih (i + 1)⟩

theorem setting_of_mem_faults_filesFrom {v? : Option Value} :
    ∀ f ∈ faults (filesFrom v?), f.place.1 = .catalogFiles := by
  intro f hf
  cases v? with
  | none => cases hf
  | some v =>
      rw [filesFrom] at hf
      unfold readFiles at hf
      split at hf
      · cases hf
      · next items _ _ =>
          have hitems := setting_of_mem_pathsFrom 0 items
          split at hf
          · cases hf
          · next faults paths _ hread =>
              rw [hread] at hitems
              exact hitems f hf
      · obtain rfl := List.mem_singleton.mp hf
        rfl

theorem faultsOn_logLevel (src : Sources) :
    faultsOn .logLevel (ofSources src) = faults (logLevelOf src) := by
  rw [faultsOn, faults_ofSources, logLevelOf_eq, catalogFilesOf_eq, List.filter_append,
    List.filter_eq_self.mpr, List.filter_eq_nil_iff.mpr, List.append_nil]
  · intro f hf
    simp [setting_of_mem_faults_filesFrom f hf]
  · intro f hf
    simp [setting_of_mem_faults_levelFrom f hf]

theorem faultsOn_catalogFiles (src : Sources) :
    faultsOn .catalogFiles (ofSources src) = faults (catalogFilesOf src) := by
  rw [faultsOn, faults_ofSources, logLevelOf_eq, catalogFilesOf_eq, List.filter_append,
    List.filter_eq_nil_iff.mpr, List.filter_eq_self.mpr, List.nil_append]
  · intro f hf
    simp [setting_of_mem_faults_filesFrom f hf]
  · intro f hf
    simp [setting_of_mem_faults_levelFrom f hf]

variable {src other : Sources} {s : Setting}

/-- Neither the faults of a setting nor its value depend on the other setting. -/
theorem faultsOn_congr (h : src.find s = other.find s) :
    faultsOn s (ofSources src) = faultsOn s (ofSources other) := by
  cases s with
  | logLevel => rw [faultsOn_logLevel, faultsOn_logLevel, logLevelOf_eq, logLevelOf_eq, h]
  | catalogFiles =>
      rw [faultsOn_catalogFiles, faultsOn_catalogFiles, catalogFilesOf_eq, catalogFilesOf_eq, h]

theorem same_of_find_eq (h : src.find s = other.find s) {st st' : Settings}
    (hst : ofSources src = .ok st) (hst' : ofSources other = .ok st') : s.Same st st' := by
  obtain ⟨hlevel, hfiles⟩ := ofSources_eq_ok_iff.mp hst
  obtain ⟨hlevel', hfiles'⟩ := ofSources_eq_ok_iff.mp hst'
  cases s with
  | logLevel =>
      rw [logLevelOf_eq, h, ← logLevelOf_eq, hlevel'] at hlevel
      exact (Except.ok.inj hlevel).symm
  | catalogFiles =>
      rw [catalogFilesOf_eq, h, ← catalogFilesOf_eq, hfiles'] at hfiles
      exact (Except.ok.inj hfiles).symm

/-- The first source that gives a setting decides what it is or which faults are reported for it;
sources that agree on the setting make no difference to it, whatever they give for the other one.
Sources that agree on both give the same settings. A variable whose name is none of the two may be
added, taken away or changed, in the environment and in the settings file. -/
theorem settings_have_own_sources (src : Sources) :
    (∀ s, ∃! v?, Decides src s v?) ∧
      (∀ level? files?, Decides src .logLevel level? → Decides src .catalogFiles files? →
        (∀ st, ofSources src = .ok st ↔
          levelFrom level? = .ok st.logLevel ∧ filesFrom files? = .ok st.catalogFiles) ∧
        faultsOn .logLevel (ofSources src) = faults (levelFrom level?) ∧
        faultsOn .catalogFiles (ofSources src) = faults (filesFrom files?)) ∧
      (∀ s other, AgreeOn s src other →
        (∀ v?, Decides src s v? ↔ Decides other s v?) ∧
          faultsOn s (ofSources src) = faultsOn s (ofSources other) ∧
          ∀ st st', ofSources src = .ok st → ofSources other = .ok st' → s.Same st st') ∧
      (∀ other, (∀ s, AgreeOn s src other) → ofSources src = ofSources other) ∧
      ∀ name, (∀ s : Setting, ¬ s.IsVariable name) →
        (∀ before after t, src.environment = before ++ (name, t) :: after →
          ofSources src = ofSources { src with environment := before ++ after }) ∧
        ∀ before after t?, src.file = before ++ (name, t?) :: after →
          ofSources src = ofSources { src with file := before ++ after } := by
  refine ⟨?_, ?_, ?_, ?_, ?_⟩
  · intro s
    refine ⟨src.find s, decides_iff.mpr rfl, ?_⟩
    intro v? hv
    exact (decides_iff.mp hv).symm
  · intro level? files? hlevel hfiles
    rw [decides_iff] at hlevel hfiles
    subst hlevel hfiles
    rw [← logLevelOf_eq, ← catalogFilesOf_eq]
    exact ⟨fun st => ofSources_eq_ok_iff, faultsOn_logLevel src, faultsOn_catalogFiles src⟩
  · intro s other h
    refine ⟨?_, faultsOn_congr h.find_eq, fun st st' => same_of_find_eq h.find_eq⟩
    intro v?
    rw [decides_iff, decides_iff, h.find_eq]
  · intro other h
    exact ofSources_congr fun s => (h s).find_eq
  · intro name hname
    refine ⟨?_, ?_⟩
    · intro before after t h
      refine ofSources_congr fun s => AgreeOn.find_eq ⟨rfl, ?_, rfl⟩
      rw [h, named_append_cons (hname s)]
    · intro before after t? h
      refine ofSources_congr fun s => AgreeOn.find_eq ⟨rfl, rfl, ?_⟩
      rw [h, named_append_cons (hname s)]

/-- A level from the environment and a file from the settings file, between names that set nothing.
A level that is not valid leaves the file alone. -/
theorem settings_have_own_sources_mixed_case :
    let src : Sources := ⟨[], [("LOG_LEVEL", "debug"), ("Lintnames_Log_Level", "error")],
      [("CATALOG_FILES", some "a.yaml"), ("lintnames_catalog_files", some "b.yaml")]⟩
    let other : Sources := { src with environment := [("LINTNAMES_LOG_LEVEL", "loud")] }
    ofSources src = .ok ⟨.error, [Path.ofString "b.yaml"]⟩ ∧
      ofSources src = ofSources { src with environment := [("Lintnames_Log_Level", "error")] } ∧
      faultsOn .catalogFiles (ofSources src) = faultsOn .catalogFiles (ofSources other) ∧
      faults (ofSources other) = [.unknownLevel "loud" (.text "loud")] := by
  intro src other
  obtain ⟨-, hvalues, hagree, -, hnames⟩ := settings_have_own_sources src
  have hnone {α : Type} (isName : Text → Prop) : ∀ v ∈ ([] : List (Text × α)), ¬ isName v.1 :=
    List.forall_mem_nil _
  have hlevel : Decides src .logLevel (some (.text "error")) :=
    .environment (hnone (· = "log_level"))
      ⟨[("LOG_LEVEL", "debug")], "Lintnames_Log_Level", [], rfl, by decide, hnone _⟩
  have hfiles : Decides src .catalogFiles (some (.text "b.yaml")) :=
    .file (hnone (· = "catalog_files")) (by decide)
      ⟨[("CATALOG_FILES", some "a.yaml")], "lintnames_catalog_files", [], rfl, by decide, hnone _⟩
  have hsame : AgreeOn .catalogFiles src other := ⟨rfl, by decide, rfl⟩
  have hunprefixed : ∀ s : Setting, ¬ s.IsVariable "LOG_LEVEL" := by
    intro s
    cases s with
    | logLevel => decide
    | catalogFiles => decide
  refine ⟨?_, ?_, ?_, ?_⟩
  · exact ((hvalues _ _ hlevel hfiles).1 _).mpr ⟨rfl, rfl⟩
  · exact (hnames "LOG_LEVEL" hunprefixed).1 [] [("Lintnames_Log_Level", "error")] "debug" rfl
  · exact (hagree .catalogFiles other hsame).2.1
  · rfl

end Settings

end NameCatalog
