import NameCatalog.Proofs.Catalog.Loading
import NameCatalog.Proofs.CommandLine.Accounts
import NameCatalog.Proofs.Settings.Sources

/-!
# Levels of the log

The log takes a level without looking whether it knows it. That is safe, since settings have only
levels that it knows: a run with any other level ends before it comes to the log. So the first run
that sets the log up leaves it with one handler, and no run fails in setting it up.
-/

namespace NameCatalog

open LogState Sources

namespace Settings

/-! ## Levels in settings -/

theorem ofWord?_eq_some_iff {word : Text} {level : Severity} :
    Severity.ofWord? word = some level ↔ word = level.word := by
  constructor
  · intro h
    exact (Severity.word_of_ofWord? h).symm
  · rintro rfl
    exact Severity.ofWord?_word level

theorem readLevel_eq_ok_iff {v : Value} {level : Severity} :
    readLevel v = .ok level ↔ ∃ t, levelText v = .ok t ∧ Text.upperCase t = level.word := by
  rw [readLevel, bind_eq_ok_iff]
  refine exists_congr fun t => and_congr_right fun _ => ?_
  rw [← ofWord?_eq_some_iff]
  cases Severity.ofWord? (Text.upperCase t) with
  | some known => simp
  | none => simp

theorem readLevel_of_unknown {t : Text} (h : ∀ level : Severity, Text.upperCase t ≠ level.word) :
    readLevel (.text t) = .error [.unknownLevel t (.text t)] := by
  have hnone : Severity.ofWord? (Text.upperCase t) = none := by
    rw [Option.eq_none_iff_forall_ne_some]
    intro level hlevel
    exact h level (ofWord?_eq_some_iff.mp hlevel)
  refine bind_eq_error_iff.mpr (.inr ⟨t, rfl, ?_⟩)
  rw [hnone]

/-- The text that is read as the level: the one that is supplied, itself or as bytes, else that of
the default. -/
inductive LevelText (src : Sources) : Text → Prop
  | supplied {t : Text} (h : Decides src .logLevel (some (.text t))) : LevelText src t
  | bytes {bs : List UInt8} {cs : List CodePoint} (h : Decides src .logLevel (some (.bytes bs)))
      (hcs : Text.Utf8.decode bs = .ok cs) : LevelText src (Text.ofList cs)
  | default (h : Decides src .logLevel none) : LevelText src "INFO"

theorem exists_levelText {src : Sources} {level : Severity} (h : logLevelOf src = .ok level) :
    ∃ t, LevelText src t ∧ Text.upperCase t = level.word := by
  rw [logLevelOf_eq] at h
  cases hfind : src.find .logLevel with
  | none =>
      rw [hfind] at h
      cases h
      exact ⟨"INFO", .default (decides_iff.mpr hfind), by decide⟩
  | some v =>
      rw [hfind] at h
      obtain ⟨t, htext, hword⟩ := readLevel_eq_ok_iff.mp h
      cases v with
      | text s =>
          cases htext
          exact ⟨_, .supplied (decides_iff.mpr hfind), hword⟩
      | bytes bs =>
          obtain ⟨cs, hcs, rfl⟩ := map_eq_ok_iff.mp (mapError_eq_ok_iff.mp htext)
          exact ⟨_, .bytes (decides_iff.mpr hfind) hcs, hword⟩
      | _ => cases htext

/-- Variables give texts, and any text can be read as a list of files. -/
theorem exists_catalogFilesOf (environment : List (Text × Text))
    (file : List (Text × Option Text)) :
    ∃ paths, catalogFilesOf ⟨[], environment, file⟩ = .ok paths := by
  rw [catalogFilesOf_eq]
  have hdecides : Decides ⟨[], environment, file⟩ .catalogFiles _ := decides_iff.mpr rfl
  generalize find ⟨[], environment, file⟩ .catalogFiles = v? at hdecides ⊢
  cases hdecides with
  | given h =>
      -- no value is given
      obtain ⟨before, name, after, hnone, -⟩ := h
      simp at hnone
  | environment _ _ => exact ⟨_, rfl⟩
  | file _ _ _ => exact ⟨_, rfl⟩
  | valueless _ _ _ => exact ⟨_, rfl⟩
  | nothing _ _ _ => exact ⟨_, rfl⟩

/-- Settings look at no file but their own. -/
theorem load_congr_found {host : Host} {found : Path → Found}
    (h : found filePath = host.found filePath) (given : List (Text × Value))
    (environment : List (Text × Text)) :
    load given environment { host with found := found } = load given environment host := by
  have hstatements : statements { host with found := found } = statements host := by
    unfold statements
    simp only [h]
  unfold load
  rw [hstatements]
  rfl

/-- A level that is not known is the only fault of settings from variables. -/
theorem ofSources_of_unknown {environment : List (Text × Text)}
    {file : List (Text × Option Text)} {t : Text}
    (h : Decides ⟨[], environment, file⟩ .logLevel (some (.text t)))
    (hunknown : ∀ level : Severity, Text.upperCase t ≠ level.word) :
    ofSources ⟨[], environment, file⟩ = .error [.unknownLevel t (.text t)] := by
  obtain ⟨paths, hpaths⟩ := exists_catalogFilesOf environment file
  have hlevel : logLevelOf ⟨[], environment, file⟩ = .error [.unknownLevel t (.text t)] := by
    rw [logLevelOf_eq, decides_iff.mp h, levelFrom, readLevel_of_unknown hunknown]
  rw [ofSources, hlevel, hpaths]

end Settings

namespace CommandLine

/-! ## Faults of runs -/

def Ending.fault? : Ending → Option Fault
  | failure f => some f
  | broken f => some f
  | _ => none

theorem Fault.fault?_ending (f : Fault) : f.ending.fault? = some f := by
  unfold Fault.ending
  split
  · rfl
  · rfl

theorem renderedFrom_ne_level {package name style : Value} {f : LevelFault} :
    renderedFrom package name style ≠ .error (.level f) := by
  intro h
  rcases bind_eq_error_iff.mp h with hname | ⟨x, -, hstyle⟩
  · obtain ⟨m, -, hm⟩ := mapError_eq_error_iff.mp hname
    cases hm
  · split at hstyle
    · cases hstyle
    · cases hstyle

theorem Task.text_ne_level {t : Task} {settings : Settings} {host : Host} {f : LevelFault} :
    (t.text settings host).result ≠ .error (.level f) := by
  intro h
  cases t with
  | help => cases h
  | render package name style => exact renderedFrom_ne_level (map_eq_error_iff.mp h)
  | catalog further listing =>
      simp only [Task.text, Logged.result_map] at h
      cases hcatalog : (catalogOf settings host further).result with
      | error g =>
          rw [hcatalog] at h
          cases h
      | ok c =>
          rw [hcatalog] at h
          cases h

theorem Task.output_ne_level {t : Task} {settings : Settings} {host : Host} {f : LevelFault} :
    (t.output settings host).result ≠ .error (.level f) := by
  intro h
  rcases bind_eq_error_iff.mp h with htext | ⟨text, -, hwritten⟩
  · exact Task.text_ne_level htext
  · unfold written at hwritten
    split at hwritten
    · cases hwritten
    · cases hwritten

namespace Account

theorem level?_ofSettings (host : Host) (request : Request) (early : List Message)
    (settings : Settings) :
    (ofSettings host request early settings).level? = some (levelFor request settings) := by
  rw [ofSettings]
  cases (request.task.output settings host).result with
  | ok output => rfl
  | error f => rfl

theorem ending_ofSettings_ne_level (host : Host) (request : Request) (early : List Message)
    (settings : Settings) (f : LevelFault) :
    (ofSettings host request early settings).ending.fault? ≠ some (.level f) := by
  rw [ofSettings]
  cases h : (request.task.output settings host).result with
  | ok output => simp [Ending.fault?]
  | error g =>
      simp only [ofFault, Fault.fault?_ending, ne_eq, Option.some.injEq]
      rintro rfl
      exact Task.output_ne_level h

/-- No run ends because a level is not known to the log. -/
theorem ending_ne_level (environment : List (Text × Text)) (host : Host) (argv : List Text)
    (f : LevelFault) : (of environment host argv).ending.fault? ≠ some (.level f) := by
  unfold of
  cases Request.ofArguments argv with
  | error stop => cases stop <;> simp [ofStop, Ending.fault?]
  | ok request =>
      simp only [ofRequest]
      split
      · simp [Ending.fault?]
      · cases (Settings.load [] environment host).2 with
        | error g => simp [ofFault, Fault.fault?_ending]
        | ok settings => exact ending_ofSettings_ne_level host request _ settings f

end Account

/-! ## Runs of one process -/

/-- A run of the program, with all that it finds but the log. -/
structure Call where
  environment : List (Text × Text)
  host : Host
  argv : List Text

namespace Call

def run (c : Call) (log : LogState) : LogState × Report :=
  CommandLine.run log c.environment c.host c.argv

/-- The log behind the runs of a process. -/
def logAfter (log : LogState) (calls : List Call) : LogState :=
  calls.foldl (fun log c => (c.run log).1) log

/-- The run gets its settings, with which it comes to set the log up. -/
structure SetsUp (c : Call) (request : Request) (settings : Settings) : Prop where
  asks : Request.ofArguments c.argv = .ok request
  not_version : request.version = false
  loads : (Settings.load [] c.environment c.host).2 = .ok settings

/-- The level for which the run sets the log up. -/
def level? (c : Call) : Option Severity := (Account.of c.environment c.host c.argv).level?

variable {c : Call} {request : Request} {settings : Settings}

theorem SetsUp.level?_eq (h : c.SetsUp request settings) :
    c.level? = some (levelFor request settings) := by
  rw [level?, Account.of_eq_ofSettings h.asks h.not_version h.loads, Account.level?_ofSettings]

theorem level?_eq_none (h : ∀ request settings, ¬ c.SetsUp request settings) :
    c.level? = none := by
  rw [level?, Account.of]
  cases hrequest : Request.ofArguments c.argv with
  | error stop => cases stop <;> rfl
  | ok request =>
      simp only [Account.ofRequest]
      split
      · rfl
      · next hversion =>
          cases hsettings : (Settings.load [] c.environment c.host).2 with
          | error f => rfl
          | ok settings =>
              exact absurd ⟨hrequest, Bool.eq_false_iff.mpr hversion, hsettings⟩
                (h request settings)

theorem SetsUp.log_run (h : c.SetsUp request settings) (log : LogState) :
    (c.run log).1 = (log.setup (.text (levelFor request settings).word)).1 := by
  have hlevel : (Account.of c.environment c.host c.argv).level? = _ := h.level?_eq
  rw [run, Account.run_eq]
  simp only [Account.logBehind, hlevel]

theorem log_run (c : Call) (first : Option Severity) :
    (c.run (.ofLevel? first)).1 = .ofLevel? (first.or c.level?) := by
  rw [run, Account.run_eq]
  exact Account.logBehind_ofLevel? _ first

theorem logAfter_append (log : LogState) (before after : List Call) :
    logAfter log (before ++ after) = logAfter (logAfter log before) after :=
  List.foldl_append

/-- The first run that sets the log up settles it for all others. -/
theorem logAfter_ofLevel? (first : Option Severity) (calls : List Call) :
    logAfter (.ofLevel? first) calls = .ofLevel? (first.or (calls.findSome? level?)) := by
  induction calls generalizing first with
  | nil => rw [List.findSome?_nil, Option.or_none, logAfter, List.foldl_nil]
  | cons c calls ih =>
      rw [← Account.or_findSome?, ← ih, ← log_run]
      rfl

theorem logAfter_initial {calls : List Call}
    (h : ∀ c ∈ calls, ∀ request settings, ¬ c.SetsUp request settings) :
    logAfter .initial calls = .initial := by
  have hnone : calls.findSome? level? = none := by
    rw [List.findSome?_eq_none_iff]
    intro c hc
    exact level?_eq_none (h c hc)
  have hlog := logAfter_ofLevel? none calls
  rw [hnone] at hlog
  exact hlog

theorem logAfter_of_setsUp {before after : List Call} {c : Call} {request : Request}
    {settings : Settings} (hbefore : ∀ b ∈ before, ∀ request settings, ¬ b.SetsUp request settings)
    (h : c.SetsUp request settings) :
    logAfter .initial (before ++ c :: after) = .ofLevel? (some (levelFor request settings)) := by
  have hfirst : logAfter .initial before = .ofLevel? none := logAfter_initial hbefore
  rw [logAfter_append, hfirst, logAfter_ofLevel?, List.findSome?_cons, h.level?_eq, Option.none_or]

/-! ## Levels that are not known -/

/-- The text is supplied as the level of the log. The settings file counts only when it can be
read. -/
inductive Supplies (c : Call) (t : Text) : Prop
  | environment (h : LastIs c.environment Setting.logLevel.IsVariable t)
  | file {ss : List (Nat × EnvFile.Statement)}
      (henvironment : ∀ v ∈ c.environment, ¬ Setting.logLevel.IsVariable v.1)
      (hss : Settings.statements c.host = .ok ss)
      (h : LastIs (EnvFile.variablesOf c.environment ss) Setting.logLevel.IsVariable (some t))

/-- The run fails with its settings: it leaves the log as it is, and no file but that of the
settings makes a difference to it. -/
structure FailsInSettings (c : Call) (f : SettingsFault) : Prop where
  run_eq : ∀ log, c.run log =
    (log, ⟨.failure (.settings f), "",
      log.writeAll (Settings.load [] c.environment c.host).1 ++
        [.bare ("Error: " ++ f.message)]⟩)
  files_unread : ∀ (log : LogState) (found : Path → Found),
    found Settings.filePath = c.host.found Settings.filePath →
      ({ c with host := { c.host with found := found } } : Call).run log = c.run log

theorem Supplies.decides {t : Text} (h : c.Supplies t) {ss : List (Nat × EnvFile.Statement)}
    (hss : Settings.statements c.host = .ok ss) :
    Decides ⟨[], c.environment, EnvFile.variablesOf c.environment ss⟩ .logLevel
      (some (.text t)) := by
  cases h with
  | environment h => exact .environment (List.forall_mem_nil _) h
  | file henvironment hfile h =>
      rw [hfile] at hss
      cases hss
      exact .file (List.forall_mem_nil _) henvironment h

theorem failsInSettings {f : SettingsFault} (hrequest : Request.ofArguments c.argv = .ok request)
    (hversion : request.version = false)
    (h : (Settings.load [] c.environment c.host).2 = .error f) (hreported : f.isReported = true) :
    c.FailsInSettings f := by
  have hfault : (Fault.settings f).isReported = true := hreported
  refine ⟨?_, ?_⟩
  · intro log
    rw [run, CommandLine.run, hrequest]
    simp only [hversion, Bool.false_eq_true, if_false, h, Report.ofFault, hfault, if_true]
    rfl
  · intro log found hfound
    simp only [run, CommandLine.run, hrequest, hversion,
      Settings.load_congr_found hfound [] c.environment, Bool.false_eq_true, if_false, h]

theorem Supplies.load_eq_error {t : Text} (h : c.Supplies t)
    (hunknown : ∀ level : Severity, Text.upperCase t ≠ level.word)
    (hreadable : ∀ number reason, c.host.found Settings.filePath ≠ .unreadable number reason) :
    ∃ f, (Settings.load [] c.environment c.host).2 = .error f ∧ f.isReported = true ∧
      (f = Settings.invalidOn c.host [.unknownLevel t (.text t)] ∨
        ∃ g, Settings.statements c.host = .error (.encoding g) ∧ f = .encoding g) := by
  rw [Settings.load]
  rcases Settings.statements_eq_ok_or_error c.host with
    ⟨ss, hss⟩ | ⟨g, hg⟩ | ⟨number, reason, hfound, -⟩
  · have hinvalid := Settings.ofSources_of_unknown (h.decides hss) hunknown
    rw [hss]
    exact ⟨_, by simp only [hinvalid, mapError_error], rfl, .inl rfl⟩
  · rw [hg]
    exact ⟨.encoding g, rfl, rfl, .inr ⟨g, rfl, rfl⟩⟩
  · exact absurd hfound (hreadable number reason)

end Call

theorem word_mem (level : Severity) :
    level.word ∈ (["DEBUG", "INFO", "WARNING", "ERROR", "CRITICAL"] : List Text) := by
  cases level <;> decide

/-- Settings that are valid have one of five levels, which is the text supplied for it in capitals
and is read as itself. So a run that gets its settings sets the log up without a fault, whatever the
log is, and no run ends for a fault of its level. Of the runs of a process, the first that gets its
settings leaves the log with one handler and its own threshold, and the others change nothing. With
any other text for the level, each run whose words can be read fails in its settings unless it asks
for the version, verbose or not. The settings file has to be one that can be read, if it is
there. -/
theorem level_is_always_known :
    (∀ (given : List (Text × Value)) (environment : List (Text × Text)) (host : Host)
        (st : Settings), (Settings.load given environment host).2 = .ok st →
      st.logLevel.word ∈ (["DEBUG", "INFO", "WARNING", "ERROR", "CRITICAL"] : List Text) ∧
        Settings.readLevel (.text st.logLevel.word) = .ok st.logLevel ∧
        ∃ ss t, Settings.statements host = .ok ss ∧
          Settings.LevelText ⟨given, environment, EnvFile.variablesOf environment ss⟩ t ∧
          Text.upperCase t = st.logLevel.word) ∧
    (∀ (c : Call) (log : LogState), (∀ f, (c.run log).2.ending.fault? ≠ some (.level f)) ∧
      ∀ request settings, c.SetsUp request settings →
        log.setup (.text (if request.verbose then "DEBUG" else settings.logLevel.word)) =
          ((c.run log).1, none)) ∧
    (∀ calls : List Call,
      ((∀ c ∈ calls, ∀ request settings, ¬ c.SetsUp request settings) →
        Call.logAfter .initial calls = .initial) ∧
      ∀ before c after request settings, calls = before ++ c :: after →
        (∀ b ∈ before, ∀ request settings, ¬ b.SetsUp request settings) →
        c.SetsUp request settings →
          Call.logAfter .initial calls =
            ⟨true, if request.verbose then Severity.debug.rank else settings.logLevel.rank, 1⟩) ∧
    ∀ (c : Call) (request : Request) (t : Text), Request.ofArguments c.argv = .ok request →
      request.version = false → c.Supplies t →
      Text.upperCase t ∉ (["DEBUG", "INFO", "WARNING", "ERROR", "CRITICAL"] : List Text) →
      (∀ number reason, c.host.found Settings.filePath ≠ .unreadable number reason) →
        ∃ f, c.FailsInSettings f ∧ (Ending.failure (.settings f)).status? = some 1 ∧
          (f = Settings.invalidOn c.host [.unknownLevel t (.text t)] ∨
            ∃ g, Settings.statements c.host = .error (.encoding g) ∧ f = .encoding g) := by
  refine ⟨?_, ?_, ?_, ?_⟩
  · intro given environment host st h
    obtain ⟨ss, hss, hsources⟩ := Settings.load_eq_ok_iff.mp h
    obtain ⟨t, ht, hword⟩ :=
      Settings.exists_levelText (Settings.ofSources_eq_ok_iff.mp hsources).1
    refine ⟨word_mem st.logLevel, ?_, ss, t, hss, ht, hword⟩
    exact Settings.readLevel_eq_ok_iff.mpr ⟨_, rfl, upperCase_word st.logLevel⟩
  · intro c log
    refine ⟨?_, ?_⟩
    · intro f
      rw [Call.run, Account.run_eq]
      exact Account.ending_ne_level c.environment c.host c.argv f
    · intro request settings h
      have hsetup := log.setup_word (levelFor request settings)
      have hlog := h.log_run log
      rw [levelFor, apply_ite Severity.word] at hsetup hlog
      exact Prod.ext hlog.symm hsetup
  · intro calls
    refine ⟨Call.logAfter_initial, ?_⟩
    rintro before c after request settings rfl hbefore h
    rw [Call.logAfter_of_setsUp hbefore h, levelFor, ← apply_ite Severity.rank]
    rfl
  · intro c request t hrequest hversion ht hunknown hreadable
    have hwords : ∀ level : Severity, Text.upperCase t ≠ level.word := by
      rintro level hlevel
      exact hunknown (hlevel ▸ word_mem level)
    obtain ⟨f, hf, hreported, hwhich⟩ := ht.load_eq_error hwords hreadable
    exact ⟨f, Call.failsInSettings hrequest hversion hf hreported, rfl, hwhich⟩

/-- A run whose level is not known, a verbose one that sets the log up, and one that comes later. -/
theorem level_is_always_known_three_runs :
    let host : Host := .empty
    let fault : SettingsFault := .invalid [(.unknownLevel "chatty" (.text "chatty"), "")]
    let unknown : Call := ⟨[("LINTNAMES_LOG_LEVEL", "chatty")], host, ["--verbose", "catalog"]⟩
    let loud : Call := ⟨[("LINTNAMES_LOG_LEVEL", "error")], host, ["--verbose", "catalog"]⟩
    let quiet : Call := ⟨[("LINTNAMES_LOG_LEVEL", "Critical")], host, ["catalog"]⟩
    unknown.FailsInSettings fault ∧
      (quiet.run .initial).1 = ⟨true, 50, 1⟩ ∧
      Call.logAfter .initial [unknown, loud, quiet] = ⟨true, 10, 1⟩ := by
  intro host fault unknown loud quiet
  obtain ⟨-, hsetUp, hruns, hfails⟩ := level_is_always_known
  have hasked : Request.ofArguments ["--verbose", "catalog"] =
      .ok ⟨false, true, .catalog [] .text⟩ := rfl
  have hsupplies : unknown.Supplies "chatty" :=
    .environment ⟨[], "LINTNAMES_LOG_LEVEL", [], rfl, by decide, List.forall_mem_nil _⟩
  obtain ⟨f, hunknown, -, hwhich⟩ :=
    hfails unknown _ "chatty" hasked rfl hsupplies (by decide) nofun
  have hf : f = fault := by
    rcases hwhich with hf | ⟨g, hg, -⟩
    · exact hf
    · cases hg
  have hnot : ∀ request settings, ¬ unknown.SetsUp request settings := by
    intro request settings h
    have hload : (Settings.load [] unknown.environment unknown.host).2 = .error fault := by
      rfl
    cases hload.symm.trans h.loads
  have hloud : loud.SetsUp ⟨false, true, .catalog [] .text⟩ ⟨.error, []⟩ := ⟨hasked, rfl, by rfl⟩
  have hquiet : quiet.SetsUp ⟨false, false, .catalog [] .text⟩ ⟨.critical, []⟩ := ⟨rfl, rfl, by rfl⟩
  refine ⟨hf ▸ hunknown, ?_, ?_⟩
  · have hlog := congrArg Prod.fst ((hsetUp quiet .initial).2 _ _ hquiet)
    dsimp only at hlog
    rw [← hlog]
    decide
  · refine (hruns [unknown, loud, quiet]).2 [unknown] loud [quiet] _ _ rfl ?_ hloud
    exact List.forall_mem_singleton.mpr hnot

end CommandLine

end NameCatalog
