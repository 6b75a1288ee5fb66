import NameCatalog.CommandLine.Run
import NameCatalog.Proofs.Catalog.Loading
import NameCatalog.Proofs.CommandLine.JsonListings
import NameCatalog.Proofs.CommandLine.ListingOptions
import NameCatalog.Proofs.Log.SetUp
import NameCatalog.Proofs.Settings.CatalogFiles

/-!
# Listings of configured and of further files

A listing reads the configured files and then those of its options. What it answers depends on the
list of all these files only: the first file that fails decides, and otherwise the names are those
of one merge behind the built-in names. The two kinds of files are read with different room left on
the stack, which makes a difference to files that fit on the one and not on the other only.
-/

namespace NameCatalog

/-- What listings rely on in the reader of YAML: the text of the file, if there is one, fits on the
stack as a further file if and only if it does as a configured one. -/
def Host.LoadsAlike (host : Host) (p : Path) : Prop :=
  ∀ bytes cs, host.found p = .file bytes → decodeText bytes = .ok cs →
    host.stack.overflows cs = host.furtherStack.overflows cs

theorem Host.loadsAlike_of_missing {host : Host} {p : Path} (h : host.found p = .missing) :
    host.LoadsAlike p := by
  intro bytes cs hfile _
  rw [h] at hfile
  cases hfile

/-- Shallow files can be relied on, whatever the host is. -/
theorem Host.loadsAlike_of_least {host : Host} {p : Path} {bytes : List UInt8}
    {cs : List CodePoint} (hfile : host.found p = .file bytes) (htext : decodeText bytes = .ok cs)
    (h : Yaml.Stack.least.overflows cs = false) : host.LoadsAlike p := by
  intro bytes' cs' hfile' htext'
  cases hfile.symm.trans hfile'
  cases htext.symm.trans htext'
  rw [Yaml.Stack.fits_of_least h, Yaml.Stack.fits_of_least h]

theorem Catalog.load_further {host : Host} {p : Path} (h : host.LoadsAlike p) :
    load host.further p = load host p := by
  unfold load
  rw [Host.found_further]
  cases hfound : host.found p with
  | file bytes =>
      have hdocument : readDocument host.further p.toString bytes =
          readDocument host p.toString bytes := by
        unfold readDocument
        cases htext : decodeText bytes with
        | error f => rfl
        | ok cs =>
            have hread : host.further.stack.read cs = host.stack.read cs := by
              rw [Yaml.Stack.read, Yaml.Stack.read, h bytes cs hfound htext]
              rfl
            simp only [mapError_ok, bind, Except.bind, hread]
            rfl
      simp only [ofBytes, hdocument]
  | _ => rfl

namespace CommandLine

/-- What the files of a listing give, each loaded by itself. The configured files come first. -/
def loads (host : Host) (settings : Settings) (further : List Value) :
    List (Except LoadFault Catalog) :=
  settings.catalogFiles.map (fun p => (Catalog.load host p).result) ++
    further.map fun v => (Catalog.loadValue host.further v).result

theorem mapM_loads (host : Host) (settings : Settings) (further : List Value) :
    (loads host settings further).mapM id = do
      let cs ← settings.catalogFiles.mapM fun p => (Catalog.load host p).result
      let ds ← further.mapM fun v => (Catalog.loadValue host.further v).result
      return cs ++ ds := by
  rw [loads, List.mapM_append, List.mapM_map, List.mapM_map]
  rfl

/-- The names of files that are loaded, each in turn behind the built-in names. -/
def loadedNames (outcomes : List (Except LoadFault Catalog)) :
    Except LoadFault (List Identifier) :=
  (outcomes.mapM id).map fun cs => (Builtin.names ++ cs.flatMap Catalog.names).eraseDups

/-- It does not matter which of the files are configured. -/
theorem names_catalogOf (settings : Settings) (host : Host) (further : List Value) :
    (catalogOf settings host further).result.map Catalog.names =
      loadedNames (loads host settings further) := by
  rw [catalogOf, Logged.result_andThen, Catalog.result_build, loadedNames, mapM_loads]
  simp only [Logged.result_andThen, Catalog.result_loadAll, Logged.result_map]
  cases settings.catalogFiles.mapM fun p => (Catalog.load host p).result with
  | error f => rfl
  | ok cs =>
      cases further.mapM fun v => (Catalog.loadValue host.further v).result with
      | error f => rfl
      | ok ds =>
          have hmerge := Catalog.names_merge_cons_merge (Builtin.catalog :: cs) ds
          have hall := Catalog.names_merge (Builtin.catalog :: (cs ++ ds))
          rw [firsts_eq_eraseDups] at hall
          exact congrArg Except.ok (hmerge.trans hall)

/-- The names that a listing of the given files shows, with as much room for each of them as a
configured file has. The settings file is read before any catalog. -/
def listingNames (host : Host) (paths : List Text) : Except Fault (List Identifier) := do
  let _ ← (Settings.statements host).mapError .settings
  (loadedNames (paths.map fun s => (Catalog.load host (Path.ofString s)).result)).mapError .load

/-- The files in front of the first that cannot be loaded, and those behind it, do not matter. -/
theorem listingNames_of_first_error {host : Host} {ss : List (Nat × EnvFile.Statement)}
    (hsettings : Settings.statements host = .ok ss) {s : Text} {f : LoadFault}
    (before after : List Text)
    (hbefore : ∀ t ∈ before, ∃ c, (Catalog.load host (Path.ofString t)).result = .ok c)
    (hfirst : (Catalog.load host (Path.ofString s)).result = .error f) :
    listingNames host (before ++ s :: after) = .error (.load f) := by
  obtain ⟨cs, hmapM⟩ := exists_mapM_eq_ok_iff.mpr hbefore
  have hcs := mapM_eq_ok_iff.mp hmapM
  have hloads : ((before ++ s :: after).map
      fun t => (Catalog.load host (Path.ofString t)).result) =
        cs.map .ok ++ .error f ::
          after.map fun t => (Catalog.load host (Path.ofString t)).result := by
    rw [List.map_append, List.map_cons, hcs, hfirst]
  rw [listingNames, hsettings, loadedNames, hloads, mapM_id_first_error]
  rfl

namespace Report

/-- How a report tells what a run has to write, or why it has nothing to write. -/
def Tells (r : Report) : Except Fault Text → Prop
  | .ok text => r.ending = .success ∧ r.output = text
  | .error f =>
    r.output = "" ∧ r.ending = (if f.isReported then .failure f else .broken f) ∧
      (f.isReported = true → r.errors.getLast? = some (.bare ("Error: " ++ f.message)))

/-- How a report tells the names of a listing. They are written if the stream takes them. -/
def TellsNames (r : Report) (stream : Stream) (listing : Listing) :
    Except Fault (List Identifier) → Prop
  | .ok names =>
    ∃ c : Catalog, c.names = names ∧ r.Tells (written stream (listed c listing ++ "\n"))
  | .error f => r.Tells (.error f)

theorem tells_ofOutput (text : Text) (errors : List LogState.Line) :
    (ofOutput text errors).Tells (.ok text) :=
  ⟨rfl, rfl⟩

theorem tells_ofFault (f : Fault) (errors : List LogState.Line) :
    (ofFault f errors).Tells (.error f) := by
  cases hreported : f.isReported with
  | true => simp [Tells, ofFault, hreported]
  | false => simp [Tells, ofFault, hreported]

theorem listed_congr {c d : Catalog} (h : c.names = d.names) (listing : Listing) :
    listed c listing = listed d listing := by
  cases listing with
  | text => rw [listed, listed, h]
  | json => rw [listed, listed, h]

variable {r s : Report}

section Tells

variable {done : Except Fault Text}

theorem Tells.ending_eq (hr : r.Tells done) (hs : s.Tells done) : r.ending = s.ending := by
  cases done with
  | ok text => exact hr.1.trans hs.1.symm
  | error f => exact hr.2.1.trans hs.2.1.symm

theorem Tells.output_eq (hr : r.Tells done) (hs : s.Tells done) : r.output = s.output := by
  cases done with
  | ok text => exact hr.2.trans hs.2.symm
  | error f => exact hr.1.trans hs.1.symm

/-- A report of status one ends with the line that tells its fault. -/
theorem Tells.exists_last_error (hr : r.Tells done) (hs : s.Tells done)
    (hstatus : r.ending.status? = some 1) :
    ∃ f : Fault, r.ending = .failure f ∧
      r.errors.getLast? = some (.bare ("Error: " ++ f.message)) ∧
      s.errors.getLast? = some (.bare ("Error: " ++ f.message)) := by
  cases done with
  | ok text =>
      rw [hr.1] at hstatus
      cases hstatus
  | error f =>
      obtain ⟨-, hending, hr⟩ := hr
      obtain ⟨-, -, hs⟩ := hs
      have hreported : f.isReported = true := by
        by_contra hreported
        rw [hending, if_neg hreported] at hstatus
        cases hstatus
      rw [if_pos hreported] at hending
      exact ⟨f, hending, hr hreported, hs hreported⟩

end Tells

/-- Names are told in one way only. -/
theorem TellsNames.exists_tells {stream : Stream} {listing : Listing}
    {outcome : Except Fault (List Identifier)} (hr : r.TellsNames stream listing outcome)
    (hs : s.TellsNames stream listing outcome) : ∃ done, r.Tells done ∧ s.Tells done := by
  cases outcome with
  | ok names =>
      obtain ⟨c, hc, hr⟩ := hr
      obtain ⟨d, hd, hs⟩ := hs
      rw [listed_congr (hc.trans hd.symm)] at hr
      exact ⟨_, hr, hs⟩
  | error f => exact ⟨.error f, hr, hs⟩

/-- All outputs take JSON. -/
theorem TellsNames.ending_eq_success {stream : Stream} {names : List Identifier}
    (h : r.TellsNames stream .json (.ok names)) : r.ending = .success := by
  obtain ⟨c, -, h⟩ := h
  have htakes : stream.Takes (listed c .json ++ "\n") :=
    Stream.takes_append.mpr
      ⟨stream.takes_of_ascii (decodes_listed c).ascii, stream.takes_of_ascii (by decide)⟩
  rw [written, if_pos htakes] at h
  exact h.1

end Report

theorem tells_runWith (log : LogState) (host : Host) (version verbose : Bool)
    (further : List Value) (listing : Listing) (settings : Settings)
    (errors : List LogState.Line) :
    (runWith log host ⟨version, verbose, .catalog further listing⟩ settings errors).2.TellsNames
      host.output listing ((loadedNames (loads host settings further)).mapError .load) := by
  have hsetup := log.setup_word (levelFor ⟨version, verbose, .catalog further listing⟩ settings)
  rw [← names_catalogOf]
  unfold runWith
  split
  · next f hlog =>
      rw [hlog] at hsetup
      cases hsetup
  · simp only [Task.output, Task.text, Logged.result_map]
    cases (catalogOf settings host further).result with
    | error f => exact Report.tells_ofFault (.load f) _
    | ok c =>
        refine ⟨c, rfl, ?_⟩
        simp only [Except.bind]
        cases written host.output (listed c listing ++ "\n") with
        | ok text => exact Report.tells_ofOutput text _
        | error f => exact Report.tells_ofFault f _

/-- The names that a listing shows once the settings are read, or the first fault on the way. -/
def listingOutcome (environment : List (Text × Text)) (host : Host)
    (os : List ListingOption) : Except Fault (List Identifier) := do
  let settings ← (Settings.load [] environment host).2.mapError .settings
  (loadedNames (loads host settings ((ListingOption.files os).map .text))).mapError .load

theorem tells_run (log : LogState) (environment : List (Text × Text)) (host : Host)
    (verbose : Bool) {os : List ListingOption}
    (h : ∀ o ∈ os, o.value.toList.head? ≠ some (.char '-')) :
    (run log environment host (listingTexts verbose os)).2.TellsNames host.output
      (ListingOption.listing os) (listingOutcome environment host os) := by
  rw [run, Request.ofArguments_listingTexts verbose h, listingOutcome]
  generalize Settings.load [] environment host = loaded
  obtain ⟨messages, settings⟩ := loaded
  cases settings with
  | error f => exact Report.tells_ofFault (.settings f) _
  | ok settings =>
      exact tells_runWith log host false verbose _ (ListingOption.listing os) settings _

/-- A listing of the given files, the first of which are configured. -/
structure ListingRun (host : Host) (paths : List Text) (listing : Listing) where
  configured : Nat
  vars : List (Text × Text)
  log : LogState
  verbose : Bool
  options : List ListingOption
  files_options : ListingOption.files options = paths.drop configured
  listing_options : ListingOption.listing options = listing
  hasLevel : Settings.HasLevel (Settings.withCatalogFiles vars (paths.take configured)) host

namespace ListingRun

variable {host : Host} {paths : List Text} {listing : Listing}

def environment (r : ListingRun host paths listing) : List (Text × Text) :=
  Settings.withCatalogFiles r.vars (paths.take r.configured)

def report (r : ListingRun host paths listing) : Report :=
  (run r.log r.environment host (listingTexts r.verbose r.options)).2

theorem first_ne_dash (h : ∀ p ∈ paths, IsFileName p) (r : ListingRun host paths listing) :
    ∀ o ∈ r.options, o.value.toList.head? ≠ some (.char '-') := by
  intro o ho
  cases o with
  | file attached name =>
      have hname : name ∈ ListingOption.files r.options := List.mem_filterMap.mpr ⟨_, ho, rfl⟩
      rw [r.files_options] at hname
      exact (h name (List.mem_of_mem_drop hname)).first_ne_dash
  | format attached l =>
      change l.word.toList.head? ≠ some (.char '-')
      cases l <;> decide

/-- Files that fit alike give the same wherever they are named. -/
theorem loads_eq (halike : ∀ p ∈ paths, host.LoadsAlike (Path.ofString p))
    (r : ListingRun host paths listing) {settings : Settings}
    (hfiles : settings.catalogFiles = (paths.take r.configured).map Path.ofString) :
    loads host settings ((ListingOption.files r.options).map .text) =
      paths.map fun s => (Catalog.load host (Path.ofString s)).result := by
  have hfurther : ∀ s ∈ paths.drop r.configured,
      (Catalog.loadValue host.further (.text s)).result =
        (Catalog.load host (Path.ofString s)).result := by
    intro s hs
    rw [Catalog.loadValue, Catalog.load_further (halike s (List.mem_of_mem_drop hs))]
  rw [loads, r.files_options, hfiles, List.map_map, List.map_map]
  conv_rhs => rw [← List.take_append_drop r.configured paths, List.map_append]
  exact congrArg _ (List.map_congr_left hfurther)

theorem listingOutcome_eq (h : ∀ p ∈ paths, IsFileName p)
    (halike : ∀ p ∈ paths, host.LoadsAlike (Path.ofString p)) (r : ListingRun host paths listing) :
    listingOutcome r.environment host r.options = listingNames host paths := by
  have hconfigured : ∀ p ∈ paths.take r.configured, IsFileName p := by
    intro p hp
    exact h p (List.mem_of_mem_take hp)
  have hload := Settings.catalogFiles_load hconfigured r.hasLevel
  rw [listingOutcome, listingNames, environment]
  cases hstatements : Settings.statements host with
  | error f =>
      rw [hstatements] at hload
      rw [map_eq_error_iff.mp hload]
      rfl
  | ok ss =>
      rw [hstatements] at hload
      obtain ⟨settings, hsettings, hfiles⟩ := map_eq_ok_iff.mp hload
      rw [hsettings, ← r.loads_eq halike hfiles]
      rfl

theorem tells_report (h : ∀ p ∈ paths, IsFileName p)
    (halike : ∀ p ∈ paths, host.LoadsAlike (Path.ofString p)) (r : ListingRun host paths listing) :
    r.report.TellsNames host.output listing (listingNames host paths) := by
  have htells := tells_run r.log r.environment host r.verbose (r.first_ne_dash h)
  rw [r.listing_options, r.listingOutcome_eq h halike] at htells
  exact htells

/-- The first files are configured, each of the others is an option of its own. -/
def ofCount (count : Nat)
    (hasLevel : Settings.HasLevel (Settings.withCatalogFiles [] (paths.take count)) host) :
    ListingRun host paths listing where
  configured := count
  vars := []
  log := .initial
  verbose := false
  options := .format true listing :: (paths.drop count).map (.file false)
  files_options := by
    rw [ListingOption.files, List.filterMap_cons_none rfl, List.filterMap_map]
    exact List.filterMap_some
  listing_options := by
    have hnone : (paths.drop count).filterMap (ListingOption.listing? ∘ .file false) = [] :=
      List.filterMap_eq_nil_iff.mpr fun _ _ => rfl
    simp only [ListingOption.listing, List.filterMap_cons, ListingOption.listing?,
      List.filterMap_map, hnone]
    rfl
  hasLevel := hasLevel

theorem hasLevel_of_missing (h : host.found Settings.filePath = .missing) (names : List Text) :
    Settings.HasLevel (Settings.withCatalogFiles [] names) host := by
  intro ss hss
  rw [Settings.statements, h] at hss
  cases hss
  have hother : Text.lowerCase "LINTNAMES_CATALOG_FILES" ≠ Setting.logLevel.variableName := by
    decide
  have hnone : Sources.find ⟨[], Settings.withCatalogFiles [] names, []⟩ .logLevel = none := by
    simp [Sources.find, Sources.lookupVariable, Settings.withCatalogFiles, hother]
  have hvariables : EnvFile.variablesOf (Settings.withCatalogFiles [] names) [] = [] := rfl
  refine ⟨Settings.defaultLevel, ?_⟩
  simp only [hvariables, Settings.logLevelOf, hnone]

end ListingRun

end CommandLine

end NameCatalog
