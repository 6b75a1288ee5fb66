import NameCatalog.CommandLine.FaultKind
import NameCatalog.Proofs.CommandLine.Accounts
import NameCatalog.Proofs.CommandLine.Listings
import NameCatalog.Proofs.Text.Splitting

/-!
# How runs end

A run ends in exactly one of four ways. Only a success writes output, and it does so when nothing
can fail any more: a listing with a file that cannot be loaded writes none of the names before it.
-/

namespace NameCatalog.CommandLine

inductive Way where
  | succeeded
  | failed
  | misused
  | brokenOff
deriving DecidableEq, Repr

def Ending.way : Ending → Way
  | success => .succeeded
  | failure _ => .failed
  | misuse => .misused
  | broken _ => .brokenOff

namespace Report

/-- What a report shows of the way in which the run ended. A success has nothing on its error stream
but lines of the log; a failure has a last line that tells its fault. -/
def EndsAs (r : Report) : Way → Prop
  | .succeeded =>
    r.ending = .success ∧ r.ending.status? = some 0 ∧ r.output ≠ "" ∧
      ∃ (before behind : LogState) (early late : List Message),
        r.errors = before.writeAll early ++ behind.writeAll late
  | .failed =>
    ∃ f : Fault, r.ending = .failure f ∧ r.ending.status? = some 1 ∧
      (f.kind = .value ∨ f.kind = .missingFile) ∧ r.output = "" ∧
      ∀ time, ∃ before, r.errorText time = before ++ ("Error: " ++ f.message ++ "\n")
  | .misused => r.ending = .misuse ∧ r.ending.status? = some 2 ∧ r.output = ""
  | .brokenOff =>
    ∃ f : Fault, r.ending = .broken f ∧ r.ending.status? = none ∧
      f.kind ≠ .value ∧ f.kind ≠ .missingFile ∧ r.output = ""

theorem EndsAs.way_eq {r : Report} {w : Way} (h : r.EndsAs w) : w = r.ending.way := by
  cases w with
  | succeeded =>
      obtain ⟨hending, -⟩ := h
      rw [hending, Ending.way]
  | failed =>
      obtain ⟨f, hending, -⟩ := h
      rw [hending, Ending.way]
  | misused =>
      obtain ⟨hending, -⟩ := h
      rw [hending, Ending.way]
  | brokenOff =>
      obtain ⟨f, hending, -⟩ := h
      rw [hending, Ending.way]

end Report

/-! ## Outputs -/

theorem Scope.help_ne_empty (scope : Scope) : scope.help ≠ "" :=
  Text.join_ne_empty (by decide) _ _ _

theorem append_newline_ne_empty (s : Text) : s ++ "\n" ≠ "" := by
  intro h
  have hlength := congrArg Text.length h
  simp at hlength

theorem Task.text_ne_empty {t : Task} {settings : Settings} {host : Host} {text : Text}
    (h : (t.text settings host).result = .ok text) : text ≠ "" := by
  cases t with
  | help =>
      rw [← Except.ok.inj h]
      exact Scope.help_ne_empty .program
  | render package name style =>
      obtain ⟨rendered, -, rfl⟩ := map_eq_ok_iff.mp h
      exact append_newline_ne_empty rendered
  | catalog further listing =>
      simp only [Task.text, Logged.result_map] at h
      cases hcatalog : (catalogOf settings host further).result with
      | error f =>
          rw [hcatalog] at h
          cases h
      | ok c =>
          rw [hcatalog] at h
          cases h
          exact append_newline_ne_empty _

theorem written_eq_ok_iff {stream : Stream} {s t : Text} :
    written stream s = .ok t ↔ stream.Takes s ∧ s = t := by
  unfold written
  split
  · next h => simp [h]
  · next h => simp [h]

theorem Task.output_ne_empty {t : Task} {settings : Settings} {host : Host} {output : Text}
    (h : (t.output settings host).result = .ok output) : output ≠ "" := by
  obtain ⟨text, htext, hwritten⟩ := bind_eq_ok_iff.mp h
  obtain ⟨-, rfl⟩ := written_eq_ok_iff.mp hwritten
  exact Task.text_ne_empty htext

/-! ## Accounts -/

namespace Account

/-- What every account is like. -/
inductive Proper : Account → Prop
  | succeeded {output : Text} (h : output ≠ "") (early : List Message)
      (level? : Option Severity) (late : List Message) :
      Proper ⟨.success, output, early, level?, late, []⟩
  | ofFault (f : Fault) (early : List Message) (level? : Option Severity)
      (late : List Message) : Proper (ofFault f early level? late)
  | misused (line : LogState.Line) : Proper ⟨.misuse, "", [], none, [], [line]⟩

theorem proper_ofStop (stop : Stop) : Proper (ofStop stop) := by
  cases stop with
  | help scope => exact .succeeded scope.help_ne_empty [] none []
  | misuse scope m => exact .misused _

theorem proper_ofSettings (host : Host) (request : Request) (early : List Message)
    (settings : Settings) : Proper (ofSettings host request early settings) := by
  unfold ofSettings
  cases h : (request.task.output settings host).result with
  | ok output =>
      simp only [h]
      exact .succeeded (Task.output_ne_empty h) _ _ _
  | error f =>
      simp only [h]
      exact .ofFault f _ _ _

theorem proper_of (environment : List (Text × Text)) (host : Host) (argv : List Text) :
    Proper (of environment host argv) := by
  unfold of
  cases Request.ofArguments argv with
  | error stop => exact proper_ofStop stop
  | ok request =>
      simp only [ofRequest]
      split
      · exact .succeeded (by decide) [] none []
      · generalize Settings.load [] environment host = loaded
        obtain ⟨messages, settings⟩ := loaded
        cases settings with
        | error f => exact .ofFault _ _ _ _
        | ok settings => exact proper_ofSettings host request messages settings

theorem endsAs_ofFault (f : Fault) (early : List Message) (level? : Option Severity)
    (late : List Message) (before behind : LogState) :
    ((ofFault f early level? late).reportAt before behind).EndsAs f.ending.way := by
  cases h : f.isReported with
  | true =>
      have hkind := FaultKind.isReported_iff.mp (f.isReported_kind.trans h)
      have hending : f.ending = .failure f := if_pos h
      have hclosing : f.closing = [.bare ("Error: " ++ f.message)] := if_pos h
      rw [hending]
      refine ⟨f, hending, ?_, hkind, rfl, ?_⟩
      · exact congrArg Ending.status? hending
      · intro time
        refine ⟨Text.join ""
          ((before.writeAll early ++ behind.writeAll late).map (LogState.Line.text time)), ?_⟩
        rw [Report.errorText, reportAt, ofFault, hclosing, List.map_append, List.map_singleton,
          Text.join_empty_concat]
        rfl
  | false =>
      have hkind : ¬ (f.kind = .value ∨ f.kind = .missingFile) := by
        rw [← FaultKind.isReported_iff, f.isReported_kind, h]
        exact Bool.false_ne_true
      have hending : f.ending = .broken f := if_neg (by simp [h])
      rw [hending]
      refine ⟨f, hending, ?_, ?_, ?_, rfl⟩
      · exact congrArg Ending.status? hending
      · exact fun h => hkind (.inl h)
      · exact fun h => hkind (.inr h)

theorem Proper.endsAs {a : Account} (h : Proper a) (before behind : LogState) :
    (a.reportAt before behind).EndsAs a.ending.way := by
  cases h with
  | succeeded hne early level? late =>
      exact ⟨rfl, rfl, hne, before, behind, early, late, List.append_nil _⟩
  | ofFault f early level? late => exact endsAs_ofFault f early level? late before behind
  | misused line => exact ⟨rfl, rfl, rfl⟩

end Account

/-! ## Listings -/

theorem catalogOf_eq_error {host : Host} {settings : Settings} {further : List Value}
    {f : LoadFault} (h : (loads host settings further).mapM id = .error f) :
    (catalogOf settings host further).result = .error f := by
  have hnames : (catalogOf settings host further).result.map Catalog.names = .error f := by
    rw [names_catalogOf, loadedNames]
    exact map_eq_error_iff.mpr h
  exact map_eq_error_iff.mp hnames

/-- A run ends in exactly one way. A listing of which a file cannot be loaded ends with the fault of
the first such file, and writes no names, also not those of the files before it. -/
theorem ends_one_way (log : LogState) (environment : List (Text × Text)) (host : Host)
    (argv : List Text) :
    let report := (run log environment host argv).2
    (∃! way, report.EndsAs way) ∧
      ∀ (verbose : Bool) (further : List Value) (listing : Listing) (settings : Settings),
        Request.ofArguments argv = .ok ⟨false, verbose, .catalog further listing⟩ →
        (Settings.load [] environment host).2 = .ok settings →
        (∃ f, .error f ∈ loads host settings further) →
        report.output = "" ∧
          ∃ (loaded : List Catalog) (f : LoadFault) (rest : List (Except LoadFault Catalog)),
            loads host settings further = loaded.map .ok ++ .error f :: rest ∧
              report.ending = (Fault.load f).ending := by
  intro report
  have hrun : report = _ := congrArg Prod.snd (Account.run_eq log environment host argv)
  refine ⟨⟨report.ending.way, ?_, fun way hway => hway.way_eq⟩, ?_⟩
  · rw [hrun]
    exact (Account.proper_of environment host argv).endsAs _ _
  · rintro verbose further listing settings hrequest hsettings ⟨g, hg⟩
    obtain ⟨loaded, f, rest, hloads⟩ := exists_first_error hg
    have hcatalog := catalogOf_eq_error (hloads ▸ mapM_id_first_error loaded f rest)
    rw [hrun, Account.of_eq_ofSettings hrequest rfl hsettings]
    simp only [Account.ofSettings, Task.output, Task.text, Logged.result_map, hcatalog]
    exact ⟨rfl, loaded, f, rest, hloads, rfl⟩

/-- The first file is loaded and the second is missing; the third is not looked at. -/
theorem ends_one_way_missing_file :
    let text := "packages:\n- package: a.b\n  names: [First]\n"
    let host : Host := .ofList [(Path.ofString "core.yaml", .file text.toUTF8.toList)]
    let os : List ListingOption :=
      [.file false "core.yaml", .file true "more.yaml", .file true "rest.yaml"]
    let report := (run .initial [] host (listingTexts true os)).2
    (∃! way, report.EndsAs way) ∧ report.output = "" ∧
      report.ending = (Fault.load (.missing "more.yaml")).ending := by
  intro text host os report
  have hrequest : Request.ofArguments (listingTexts true os) =
      .ok ⟨false, true, .catalog ((ListingOption.files os).map .text) .text⟩ :=
    Request.ofArguments_listingTexts true (by decide)
  have hsettings : (Settings.load [] [] host).2 = .ok ⟨.info, []⟩ := by
    rfl
  have hmore := Catalog.result_load_of_missing
    (show host.found (Path.ofString "more.yaml") = .missing by decide +kernel)
  have hrest := Catalog.result_load_of_missing
    (show host.found (Path.ofString "rest.yaml") = .missing by decide +kernel)
  have hnames : (Path.ofString "more.yaml").toString = "more.yaml" ∧
      (Path.ofString "rest.yaml").toString = "rest.yaml" := by
    decide +kernel
  rw [hnames.1] at hmore
  rw [hnames.2] at hrest
  have hloads : loads host ⟨.info, []⟩ ((ListingOption.files os).map .text) =
      [(Catalog.load host (Path.ofString "core.yaml")).result,
        .error (.missing "more.yaml"), .error (.missing "rest.yaml")] := by
    rw [← hmore, ← hrest]
    rfl
  have hloaded : (fault? (Catalog.load host (Path.ofString "core.yaml")).result).isNone = true := by
    decide +kernel
  obtain ⟨c, hc⟩ := exists_ok_of_isNone hloaded
  rw [hc] at hloads
  obtain ⟨hway, hlisting⟩ := ends_one_way .initial [] host (listingTexts true os)
  obtain ⟨houtput, loaded, f, rest, hfirst, hending⟩ :=
    hlisting true _ .text _ hrequest hsettings ⟨.missing "more.yaml", by simp [hloads]⟩
  have hfault := mapM_id_first_error loaded f rest
  rw [← hfirst, hloads] at hfault
  rw [hending, ← Except.error.inj hfault]
  exact ⟨hway, houtput, rfl⟩

end NameCatalog.CommandLine
