import NameCatalog.Proofs.CommandLine.Accounts
import NameCatalog.Proofs.CommandLine.ListingOptions
import NameCatalog.Proofs.Settings.References

/-!
# What runs do not depend on

Neither the runs before it nor the level of the log show in how a run ends and in what it writes.
They only decide which of its messages are written. The level can have a part in the choice of the
catalog files, when the settings file refers to its variable.
-/

namespace NameCatalog

open LogState

namespace CommandLine

/-! ## A verbose flag in front -/

namespace Given

/-- What is given behind flags in front of it. -/
def behind (g : Given) (fs : List (Flag × Value)) : Given := { g with flags := fs ++ g.flags }

theorem take_behind (scope : Scope) (g : Given) (fs xs : List (Flag × Value)) :
    (g.behind fs).take scope xs = (g.take scope xs).map (·.behind fs) := by
  induction xs generalizing g with
  | nil => rfl
  | cons x xs ih =>
      obtain ⟨f, value⟩ := x
      have hnext : ({ g.behind fs with flags := (g.behind fs).flags ++ [(f, value)] } : Given) =
          { g with flags := g.flags ++ [(f, value)] }.behind fs := by
        simp [behind]
      -- both stop at the same flag, and for the same reason
      simp only [take, hnext, ih]
      split
      · rfl
      · split
        · rfl
        · rfl

end Given

theorem readProgram_behind (g : Given) (fs : List (Flag × Value)) (ws : List Word) :
    readProgram (g.behind fs) ws = (readProgram g ws).map fun r => (r.1.behind fs, r.2) := by
  induction ws generalizing g with
  | nil => rfl
  | cons w ws ih =>
      cases hkind : w.kind with
      | argument => simp only [readProgram, hkind, Except.map]
      | separator =>
          simp only [readProgram, hkind]
          split
          · rfl
          · rfl
      | unknown =>
          simp only [readProgram, hkind]
          exact ih (g.addLeftover [w.text])
      | flag f isLong attached =>
          simp only [readProgram, hkind]
          cases Cluster.ofWord .program none f isLong attached with
          | error m => rfl
          | ok cluster =>
              simp only [Given.take_behind]
              cases g.take .program cluster.flags with
              | error stop => rfl
              | ok g => exact ih g

namespace Request

/-- What the words from the command on ask for, and those of them that are left over. -/
def taskFor : Option (Text × List Text) → Except Stop (Task × List Text)
  | none => .ok (.help, [])
  | some (name, texts) =>
    match Command.ofWord? name with
    | none => .error (.misuse .program (.badCommand name))
    | some c => (commandGiven c texts).map fun given => (taskOf given c, given.leftover)

def ofParts (g : Given) (asked : Task × List Text) : Except Stop Request :=
  match g.leftover ++ asked.2 with
  | [] => .ok ⟨g.has .version, g.has .verbose, asked.1⟩
  | words => .error (.misuse .program (.unrecognized words))

theorem ofArguments_eq (argv : List Text) :
    ofArguments argv =
      (Word.ofTexts .program argv).mapError (.misuse .program) >>= fun words =>
        readProgram .empty words >>= fun r => taskFor r.2 >>= ofParts r.1 := by
  unfold ofArguments
  refine bind_congr fun words => bind_congr fun r => ?_
  obtain ⟨g, command⟩ := r
  rcases command with _ | ⟨name, texts⟩
  · rfl
  · simp only [taskFor]
    cases Command.ofWord? name with
    | none => rfl
    | some c => rfl

theorem ofParts_behind_verbose (g : Given) (asked : Task × List Text) :
    ofParts (g.behind [(.verbose, .null)]) asked =
      (ofParts g asked).map fun request => { request with verbose := true } := by
  unfold ofParts
  change (match g.leftover ++ asked.2 with | [] => _ | words => _) = _
  cases g.leftover ++ asked.2 with
  | nil => rfl
  | cons word words => rfl

theorem ofArguments_verbose (argv : List Text) :
    ofArguments ("--verbose" :: argv) =
      (ofArguments argv).map fun request => { request with verbose := true } := by
  rw [ofArguments_eq, ofArguments_eq, Word.ofTexts_cons Word.reads_verbose]
  cases Word.ofTexts .program argv with
  | error m => rfl
  | ok ws =>
      have hprogram : readProgram .empty (⟨"--verbose", .flag .verbose true none⟩ :: ws) =
          (readProgram .empty ws).map fun r => (r.1.behind [(.verbose, .null)], r.2) :=
        readProgram_behind .empty [(.verbose, .null)] ws
      change (readProgram .empty (_ :: ws) >>= _) = Except.map _ (readProgram .empty ws >>= _)
      rw [hprogram]
      cases readProgram .empty ws with
      | error stop => rfl
      | ok r =>
          change (taskFor r.2 >>= ofParts (r.1.behind _)) =
            Except.map _ (taskFor r.2 >>= ofParts r.1)
          cases taskFor r.2 with
          | error stop => rfl
          | ok asked => exact ofParts_behind_verbose r.1 asked

end Request

/-! ## Accounts for another level -/

theorem Task.output_congr {settings other : Settings}
    (h : other.catalogFiles = settings.catalogFiles) (host : Host) (t : Task) :
    t.output other host = t.output settings host := by
  cases t with
  | help => rfl
  | render package name style => rfl
  | catalog further listing =>
      rw [Task.output, Task.output, Task.text, Task.text, catalogOf, catalogOf, h]

namespace Account

def forLevel (a : Account) (level? : Option Severity) : Account := { a with level? := level? }

theorem ofSettings_forLevel (host : Host) (request : Request) (early : List Message)
    (settings : Settings) {other : Request} {otherSettings : Settings}
    (htask : other.task = request.task)
    (hfiles : otherSettings.catalogFiles = settings.catalogFiles) :
    ofSettings host other early otherSettings =
      (ofSettings host request early settings).forLevel
        (some (levelFor other otherSettings)) := by
  simp only [ofSettings, htask, Task.output_congr hfiles]
  split
  · rfl
  · rfl

theorem of_verbose (environment : List (Text × Text)) (host : Host) (argv : List Text) :
    ∃ level?, of environment host ("--verbose" :: argv) =
      (of environment host argv).forLevel level? := by
  unfold of
  rw [Request.ofArguments_verbose]
  cases Request.ofArguments argv with
  | error stop => exact ⟨_, rfl⟩
  | ok request =>
      simp only [Except.map, ofRequest]
      split
      · exact ⟨_, rfl⟩
      · cases (Settings.load [] environment host).2 with
        | error f => exact ⟨_, rfl⟩
        | ok settings => exact ⟨_, ofSettings_forLevel host request _ settings rfl rfl⟩

theorem of_load_congr {environment other : List (Text × Text)} {host : Host}
    (hmessages : (Settings.load [] other host).1 = (Settings.load [] environment host).1)
    (hfiles : (Settings.load [] other host).2.map Settings.catalogFiles =
      (Settings.load [] environment host).2.map Settings.catalogFiles) (argv : List Text) :
    ∃ level?, of other host argv = (of environment host argv).forLevel level? := by
  unfold of
  cases Request.ofArguments argv with
  | error stop => exact ⟨_, rfl⟩
  | ok request =>
      simp only [ofRequest, hmessages]
      split
      · exact ⟨_, rfl⟩
      · cases hsettings : (Settings.load [] environment host).2 with
        | error f =>
            rw [hsettings] at hfiles
            rw [map_eq_error_iff.mp hfiles]
            exact ⟨_, rfl⟩
        | ok settings =>
            rw [hsettings] at hfiles
            obtain ⟨otherSettings, hother, hsame⟩ := map_eq_ok_iff.mp hfiles
            rw [hother]
            exact ⟨_, ofSettings_forLevel host request _ settings rfl hsame⟩

end Account

/-! ## Runs that differ in the log only -/

/-- Two runs, each with the log that it finds, end alike and write the same. They have the same
messages for the log, before and behind its set-up, and close with the same lines. -/
structure AgreeButLog (before : LogState) (r : LogState × Report) (otherBefore : LogState)
    (other : LogState × Report) : Prop where
  ending : r.2.ending = other.2.ending
  output : r.2.output = other.2.output
  errors : ∃ (early late : List Message) (closing : List Line),
    r.2.errors = before.writeAll early ++ r.1.writeAll late ++ closing ∧
      other.2.errors = otherBefore.writeAll early ++ other.1.writeAll late ++ closing

theorem agreeButLog_of_forLevel {environment other : List (Text × Text)} {host : Host}
    {argv words : List Text}
    (h : ∃ level?,
      Account.of other host words = (Account.of environment host argv).forLevel level?)
    (otherBefore before : LogState) :
    AgreeButLog otherBefore (run otherBefore other host words) before
      (run before environment host argv) := by
  obtain ⟨level?, h⟩ := h
  rw [Account.run_eq, Account.run_eq, h]
  exact ⟨rfl, rfl, _, _, _, rfl, rfl⟩

theorem agreeButLog_withVariable {environment : List (Text × Text)} {host : Host}
    {name text : Text} {level : Severity}
    (hname : Text.lowerCase name = Setting.logLevel.variableName)
    (hlevel : Settings.HasLevel environment host)
    (htext : Settings.readLevel (.text text) = .ok level)
    (hfiles : Settings.filesValue (Settings.withVariable environment name text) host =
      Settings.filesValue environment host) (log : LogState) (argv : List Text) :
    AgreeButLog log (run log (Settings.withVariable environment name text) host argv)
      log (run log environment host argv) := by
  have hchanged := Settings.hasLevel_withVariable hname hlevel htext
  obtain ⟨hmessages, hload⟩ := Settings.load_congr hlevel hchanged hfiles
  exact agreeButLog_of_forLevel (Account.of_load_congr hmessages hload argv) log log

/-- Runs of one process, with the files unchanged, end and write as each of them does alone. They
find the log as the first of them left it that set it up. A verbose flag in front of the words makes
no difference but for the log, and neither does another valid level, if the value of the catalog
files is the same with it. That is so where the environment gives this value, and where the settings
file does not refer to the variable of the level. -/
theorem independent_of_log (host : Host) :
    (∀ (runs : List (List (Text × Text) × List Text)) (i : Nat) r, runs[i]? = some r →
      let first := (runs.take i).findSome? (Account.levelOf host)
      let alone := run .initial r.1 host r.2
      let later := run (.ofLevel? first) r.1 host r.2
      (runAll .initial host runs)[i]? = some later.2 ∧
        alone.1 = .ofLevel? (Account.levelOf host r) ∧
        later.1 = .ofLevel? (first.or (Account.levelOf host r)) ∧
        AgreeButLog (.ofLevel? first) later .initial alone) ∧
    (∀ (log : LogState) (environment : List (Text × Text)) (argv : List Text),
      AgreeButLog log (run log environment host ("--verbose" :: argv))
        log (run log environment host argv)) ∧
    ∀ (environment : List (Text × Text)) (name text : Text) (level : Severity),
      Text.lowerCase name = Setting.logLevel.variableName →
      Settings.HasLevel environment host → Settings.readLevel (.text text) = .ok level →
      let changed := Settings.withVariable environment name text
      (Settings.filesValue changed host = Settings.filesValue environment host →
        ∀ (log : LogState) (argv : List Text),
          AgreeButLog log (run log changed host argv) log (run log environment host argv)) ∧
      ((Sources.lookupVariable environment Setting.catalogFiles.variableName).isSome ∨
          (∀ ss, Settings.statements host = .ok ss → ∀ s ∈ ss, ¬ s.2.Refers name) →
        Settings.filesValue changed host = Settings.filesValue environment host) := by
  refine ⟨?_, ?_, ?_⟩
  · intro runs i r hr first alone later
    have hlater : later = _ := Account.run_eq (.ofLevel? first) r.1 host r.2
    have halone : alone = _ := Account.run_eq (.ofLevel? none) r.1 host r.2
    have hreport := Account.getElem?_runAll host none runs i
    have hbehind := (Account.of r.1 host r.2).logBehind_ofLevel?
    simp only [hbehind] at hlater halone
    refine ⟨?_, congrArg Prod.fst halone, congrArg Prod.fst hlater, ?_⟩
    · rw [hlater]
      rw [hr] at hreport
      exact hreport
    · exact agreeButLog_of_forLevel ⟨_, rfl⟩ (.ofLevel? first) .initial
  · intro log environment argv
    exact agreeButLog_of_forLevel (Account.of_verbose environment host argv) log log
  · intro environment name text level hname hlevel htext changed
    have hother : Text.lowerCase name ≠ Setting.catalogFiles.variableName := by
      rw [hname]
      decide
    refine ⟨agreeButLog_withVariable hname hlevel htext, ?_⟩
    rintro (hgiven | hnot)
    · obtain ⟨given, hgiven⟩ := Option.isSome_iff_exists.mp hgiven
      exact Settings.filesValue_withVariable_of_lookup host text hother hgiven
    · exact Settings.filesValue_withVariable_of_not_refers text hother hnot

/-- The settings file names its catalog by a variable of its own. The first run sets the log up, and
the second finds it so. -/
theorem independent_of_log_second_run :
    let text := "CORE=core\n=\nLINTNAMES_CATALOG_FILES=$\x7bCORE\x7d.yaml\n"
    let host : Host := .ofList [(Settings.filePath, .file text.toUTF8.toList),
      (Path.ofString "core.yaml", .file "packages: []\n".toUTF8.toList)]
    let quiet : List (Text × Text) := [("LINTNAMES_LOG_LEVEL", "error")]
    let loud : List (Text × Text) := [("LINTNAMES_LOG_LEVEL", "debug")]
    let later := run (.ofLevel? (some .error)) [] host ["catalog"]
    (runAll .initial host [(quiet, ["render", "a.b", "C"]), ([], ["catalog"])])[1]? =
        some later.2 ∧
      AgreeButLog (.ofLevel? (some .error)) later .initial (run .initial [] host ["catalog"]) ∧
      ∀ log argv, AgreeButLog log (run log loud host argv) log (run log quiet host argv) := by
  intro text host quiet loud later
  obtain ⟨hsequence, -, hlevel⟩ := independent_of_log host
  have hfirst : List.findSome? (Account.levelOf host) [(quiet, ["render", "a.b", "C"])] =
      some .error := by
    decide +kernel
  have hstatements : (Settings.statements host).toOption =
      some [(1, .assign "CORE" (some "core")), (2, .unreadable),
        (3, .assign "LINTNAMES_CATALOG_FILES" (some "$\x7bCORE\x7d.yaml"))] := by
    decide +kernel
  have hnot : ∀ ss, Settings.statements host = .ok ss →
      ∀ s ∈ ss, ¬ s.2.Refers "LINTNAMES_LOG_LEVEL" := by
    intro ss hss
    rw [hss] at hstatements
    obtain rfl := Option.some.inj hstatements
    decide +kernel
  have herror : Settings.readLevel (.text "error") = .ok .error := by
    rfl
  have hquiet : Settings.HasLevel quiet host :=
    Settings.hasLevel_of_lookup (by decide) herror host
  obtain ⟨hreport, -, -, hagree⟩ := hsequence
    [(quiet, ["render", "a.b", "C"]), ([], ["catalog"])] 1 ([], ["catalog"]) rfl
  obtain ⟨hchanged, hfiles⟩ := hlevel quiet "LINTNAMES_LOG_LEVEL" "debug" .debug (by decide)
    hquiet (by rfl)
  rw [List.take_succ_cons, List.take_zero, hfirst] at hreport hagree
  exact ⟨hreport, hagree, hchanged (hfiles (.inr hnot))⟩

/-- The settings file names its catalog by the level of the log: only one of the two is there. -/
theorem level_reaches_catalog_files :
    let text := "LINTNAMES_CATALOG_FILES=$\x7bLINTNAMES_LOG_LEVEL\x7d.yaml\n"
    let host : Host := .ofList [(Settings.filePath, .file text.toUTF8.toList),
      (Path.ofString "INFO.yaml", .file "packages: []\n".toUTF8.toList)]
    let report (level : Severity) :=
      (run .initial [("LINTNAMES_LOG_LEVEL", level.word)] host ["catalog"]).2
    (report .info).ending.status? = some 0 ∧ (report .error).ending.status? = some 1 := by
  decide +kernel

end CommandLine

end NameCatalog
