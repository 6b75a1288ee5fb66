import NameCatalog.Proofs.Catalog.Failures
import NameCatalog.Proofs.CommandLine.Listings

/-!
# Listings that break off

A run answers when it succeeds, or fails with status one and a last line about its fault. A listing
of regular files answers unless the first of them that cannot be loaded has a text that breaks off.
-/

namespace NameCatalog

namespace CommandLine

/-- The run succeeds, or it fails and says why. -/
def Report.Answers (r : Report) : Prop :=
  r.ending = .success ∨ ∃ f : Fault, r.ending = .failure f ∧ r.ending.status? = some 1 ∧
    r.output = "" ∧ r.errors.getLast? = some (.bare ("Error: " ++ f.message))

namespace Report

variable {r : Report}

theorem Tells.ending_eq_broken_iff {done : Except Fault Text} (h : r.Tells done) {f : Fault} :
    r.ending = .broken f ↔ done = .error f ∧ f.isReported = false := by
  cases done with
  | ok text => simp [h.1]
  | error g =>
      rw [h.2.1]
      cases hreported : g.isReported with
      | true =>
          simp only [if_true, reduceCtorEq, Except.error.injEq, false_iff, not_and]
          rintro rfl
          simp [hreported]
      | false =>
          simp only [Bool.false_eq_true, if_false, Ending.broken.injEq, Except.error.injEq,
            iff_self_and]
          rintro rfl
          exact hreported

theorem Tells.broken_or_answers {done : Except Fault Text} (h : r.Tells done) :
    (∃ f, r.ending = .broken f) ∨ r.Answers := by
  cases done with
  | ok text => exact .inr (.inl h.1)
  | error f =>
      obtain ⟨houtput, hending, hlast⟩ := h
      cases hreported : f.isReported with
      | true =>
          rw [if_pos hreported] at hending
          refine .inr (.inr ⟨f, hending, ?_, houtput, hlast hreported⟩)
          rw [hending]
          rfl
      | false =>
          rw [if_neg (by simp [hreported])] at hending
          exact .inl ⟨f, hending⟩

variable {stream : Stream} {listing : Listing} {outcome : Except Fault (List Identifier)}

/-- An output that is not taken is reported. -/
theorem TellsNames.ending_eq_broken_iff (h : r.TellsNames stream listing outcome) {f : Fault} :
    r.ending = .broken f ↔ outcome = .error f ∧ f.isReported = false := by
  cases outcome with
  | error g =>
      have htold : r.Tells (.error g) := h
      simp only [htold.ending_eq_broken_iff, Except.error.injEq]
  | ok names =>
      obtain ⟨c, -, h⟩ := h
      rw [h.ending_eq_broken_iff, written]
      split
      · simp
      · constructor
        · rintro ⟨hrefused, hbroken⟩
          rw [← Except.error.inj hrefused] at hbroken
          cases hbroken
        · rintro ⟨hlisted, -⟩
          cases hlisted

theorem TellsNames.broken_or_answers (h : r.TellsNames stream listing outcome) :
    (∃ f, r.ending = .broken f) ∨ r.Answers := by
  obtain ⟨done, h, -⟩ := h.exists_tells h
  exact h.broken_or_answers

end Report

variable {log : LogState} {environment : List (Text × Text)} {host : Host} {verbose : Bool}
  {os : List ListingOption}

theorem catalogLoads_listingTexts (h : ∀ o ∈ os, o.value.toList.head? ≠ some (.char '-')) :
    catalogLoads environment host (listingTexts verbose os) =
      match (Settings.load [] environment host).2 with
      | .ok settings => settings.catalogFiles.map (host, ·) ++
          (ListingOption.files os).map fun s => (host.further, Path.ofString s)
      | .error _ => [] := by
  have hfurther : ((ListingOption.files os).map Value.text).filterMap
      (fun v => v.text?.map Path.ofString) = (ListingOption.files os).map Path.ofString := by
    rw [List.filterMap_map]
    exact congrFun List.filterMap_eq_map (ListingOption.files os)
  rw [catalogLoads, Request.ofArguments_listingTexts verbose h]
  cases (Settings.load [] environment host).2 with
  | error f => rfl
  | ok settings => simp only [hfurther, List.map_map, Function.comp_def]

/-- Every load finds the files of the host. -/
theorem found_of_mem_catalogLoads {argv : List Text} {l : Host × Path}
    (h : l ∈ catalogLoads environment host argv) : l.1.found = host.found := by
  unfold catalogLoads at h
  split at h
  · rcases List.mem_append.mp h with hconfigured | hfurther
    · obtain ⟨p, -, rfl⟩ := List.mem_map.mp hconfigured
      rfl
    · obtain ⟨p, -, rfl⟩ := List.mem_map.mp hfurther
      rfl
  · cases h

theorem loadedNames_loads_eq_error_iff {settings : Settings} {names : List Text} {f : LoadFault} :
    loadedNames (loads host settings (names.map .text)) = .error f ↔
      ((settings.catalogFiles.map (host, ·) ++
          names.map fun s => (host.further, Path.ofString s)).mapM
        fun l => (Catalog.load l.1 l.2).result) = .error f := by
  have hloads : loads host settings (names.map .text) =
      (settings.catalogFiles.map (host, ·) ++
        names.map fun s => (host.further, Path.ofString s)).map
          fun l => (Catalog.load l.1 l.2).result := by
    rw [loads, List.map_append, List.map_map, List.map_map, List.map_map]
    rfl
  rw [loadedNames, map_eq_error_iff, hloads, List.mapM_map]
  rfl

/-- The settings file is there, and cannot be read for a reason of the system's. -/
def SettingsUnreadable (host : Host) (f : Fault) : Prop :=
  ∃ number reason, host.found Settings.filePath = .unreadable number reason ∧
    f = .settings (.unreadable Settings.filePath.toString number reason)

theorem listingOutcome_breaks_off_iff (h : ∀ o ∈ os, o.value.toList.head? ≠ some (.char '-'))
    {f : Fault} :
    listingOutcome environment host os = .error f ∧ f.isReported = false ↔
      SettingsUnreadable host f ∨
        ∃ g, ((catalogLoads environment host (listingTexts verbose os)).mapM
            fun l => (Catalog.load l.1 l.2).result) = .error g ∧
          g.isReported = false ∧ f = .load g := by
  have hbreaks {g : SettingsFault} :
      (Settings.load [] environment host).2 = .error g ∧ g.isReported = false ↔
        ∃ number reason, host.found Settings.filePath = .unreadable number reason ∧
          g = .unreadable Settings.filePath.toString number reason :=
    Settings.load_breaks_off_iff
  rw [catalogLoads_listingTexts h, listingOutcome]
  cases hload : (Settings.load [] environment host).2 with
  | error g =>
      constructor
      · rintro ⟨hsettings, hbroken⟩
        cases hsettings
        obtain ⟨number, reason, hfound, rfl⟩ := hbreaks.mp ⟨hload, hbroken⟩
        exact .inl ⟨number, reason, hfound, rfl⟩
      · rintro (⟨number, reason, hfound, rfl⟩ | ⟨g, hnone, -⟩)
        · obtain ⟨hfault, -⟩ := hbreaks.mpr ⟨number, reason, hfound, rfl⟩
          cases hload.symm.trans hfault
          exact ⟨rfl, rfl⟩
        · cases hnone
  | ok settings =>
      have hreadable : ¬ SettingsUnreadable host f := by
        rintro ⟨number, reason, hfound, -⟩
        obtain ⟨hfault, -⟩ := hbreaks.mpr ⟨number, reason, hfound, rfl⟩
        cases hload.symm.trans hfault
      rw [or_iff_right hreadable]
      change (loadedNames _).mapError .load = .error f ∧ f.isReported = false ↔ _
      rw [mapError_eq_error_iff]
      constructor
      · rintro ⟨⟨g, hg, rfl⟩, hbroken⟩
        exact ⟨g, loadedNames_loads_eq_error_iff.mp hg, hbroken, rfl⟩
      · rintro ⟨g, hg, hbroken, rfl⟩
        exact ⟨⟨g, loadedNames_loads_eq_error_iff.mpr hg, rfl⟩, hbroken⟩

theorem ending_eq_broken_iff (log : LogState)
    (h : ∀ o ∈ os, o.value.toList.head? ≠ some (.char '-')) {content : Path → List UInt8}
    (hfiles : ∀ l ∈ catalogLoads environment host (listingTexts verbose os),
      host.found l.2 = .file (content l.2)) {f : Fault} :
    (run log environment host (listingTexts verbose os)).2.ending = .broken f ↔
      SettingsUnreadable host f ∨
        ∃ p g, Catalog.FirstBreak content
          (catalogLoads environment host (listingTexts verbose os)) p g ∧
            f = .load (.yaml p.toString g) := by
  have hfound : ∀ l ∈ catalogLoads environment host (listingTexts verbose os),
      l.1.found l.2 = .file (content l.2) := by
    intro l hl
    rw [found_of_mem_catalogLoads hl]
    exact hfiles l hl
  rw [(tells_run log environment host verbose h).ending_eq_broken_iff,
    listingOutcome_breaks_off_iff h]
  refine or_congr_right ?_
  constructor
  · rintro ⟨g, hload, hbroken, rfl⟩
    obtain ⟨p, g, hfirst, rfl⟩ := (Catalog.mapM_load_breaks_off_iff hfound).mp ⟨hload, hbroken⟩
    exact ⟨p, g, hfirst, rfl⟩
  · rintro ⟨p, g, hfirst, rfl⟩
    obtain ⟨hload, hbroken⟩ := (Catalog.mapM_load_breaks_off_iff hfound).mpr ⟨p, g, hfirst, rfl⟩
    exact ⟨_, hload, hbroken, rfl⟩

/-- Catalog files with any content fail to load for a fault of that content. All such faults are
reported but those of texts that break off, and ordinary text breaks off only when it takes more
than the stack or has a number of too many groups of sixtieths. A listing of the files breaks off if
and only if the settings file cannot be read or the first of the files that cannot be loaded has a
text that does. Otherwise it answers. -/
theorem only_texts_break_off {host : Host} {paths : List Path} {content : Path → List UInt8}
    (hfiles : ∀ p ∈ paths, host.found p = .file (content p)) :
    (∀ p ∈ paths,
      (∀ f, (Catalog.load host p).result = .error f ↔ FaultOf host p.toString (content p) f) ∧
      (∀ f, (Catalog.load host p).result = .error f ∧ f.isReported = false ↔
        ∃ g, BreaksOff host.stack (content p) g ∧ f = .yaml p.toString g) ∧
      ∀ cs, decodeText (content p) = .ok cs → Yaml.OrdinaryText cs →
        Ends (fun f => f.isReported = true ∨ f = .yaml p.toString .tooDeep ∨
          f = .yaml p.toString .hugePower) (fun _ => True) (Catalog.load host p).result) ∧
    ∀ (log : LogState) (environment : List (Text × Text)) (verbose : Bool)
      (os : List ListingOption), (∀ o ∈ os, o.value.toList.head? ≠ some (.char '-')) →
      let loads := catalogLoads environment host (listingTexts verbose os)
      let report := (run log environment host (listingTexts verbose os)).2
      loads.map Prod.snd = paths →
      (∀ f, report.ending = .broken f ↔ SettingsUnreadable host f ∨
        ∃ p g, Catalog.FirstBreak content loads p g ∧ f = .load (.yaml p.toString g)) ∧
      ((∃ f, report.ending = .broken f) ∨ report.Answers) := by
  refine ⟨?_, ?_⟩
  · intro p hp
    have hfile := hfiles p hp
    refine ⟨?_, ?_, ?_⟩
    · intro f
      exact Catalog.result_load_eq_error_iff hfile
    · intro f
      exact Catalog.load_breaks_off_iff hfile
    · intro cs htext hordinary
      exact Catalog.ends_load hfile htext hordinary
  · rintro log environment verbose os hdash loads report rfl
    refine ⟨?_, (tells_run log environment host verbose hdash).broken_or_answers⟩
    intro f
    exact ending_eq_broken_iff log hdash fun l hl => hfiles l.2 (List.mem_map_of_mem hl)

/-- A catalog with a name that is tagged as a truth value and is none. -/
def mistaggedName : List UInt8 :=
  "packages:\n- package: a.b\n  names:\n  - First\n  - !!bool maybe\n".toUTF8.toList

theorem breaksOff_mistaggedName (stack : Yaml.Stack) :
    BreaksOff stack mistaggedName (.truth "maybe") := by
  have htext : decodeText mistaggedName =
      .ok (Text.toList "packages:\n- package: a.b\n  names:\n  - First\n  - !!bool maybe\n") := by
    decide +kernel
  refine ⟨rfl, _, htext, ?_⟩
  rw [Yaml.Stack.read_of_fits (Yaml.Stack.fits_of_least (by decide +kernel) stack)]
  refine fault?_eq_some_iff.mp ?_
  decide +kernel

/-- Of two files the first is loaded, and the text of the second breaks the listing off. -/
theorem only_texts_break_off_second_file :
    let core := Path.ofString "core.yaml"
    let more := Path.ofString "more names.yaml"
    let text := Text.toList "packages:\n- package: a.b\n  names: [First]\n"
    let content : Path → List UInt8 := fun p =>
      if p = core then Text.Utf8.encode text else mistaggedName
    let host : Host := .ofList [(core, .file (content core)), (more, .file (content more))]
    let os : List ListingOption := [.file false "core.yaml", .file true "more names.yaml"]
    (∀ p ∈ [core, more], host.found p = .file (content p)) ∧
      (∀ o ∈ os, o.value.toList.head? ≠ some (.char '-')) ∧
      (catalogLoads [] host (listingTexts true os)).map Prod.snd = [core, more] ∧
      decodeText (content core) = .ok text ∧ Yaml.OrdinaryText text ∧
      Ends (fun f => f.isReported = true ∨ f = .yaml core.toString .tooDeep ∨
        f = .yaml core.toString .hugePower) (fun _ => True) (Catalog.load host core).result ∧
      (Catalog.load host more).result = .error (.yaml more.toString (.truth "maybe")) ∧
      (run .initial [] host (listingTexts true os)).2.ending =
        .broken (.load (.yaml more.toString (.truth "maybe"))) := by
  intro core more text content host os
  have hfiles : ∀ p ∈ [core, more], host.found p = .file (content p) := by
    decide +kernel
  have hdash : ∀ o ∈ os, o.value.toList.head? ≠ some (.char '-') := by
    decide
  have hloads : catalogLoads [] host (listingTexts true os) =
      [(host.further, core), (host.further, more)] := by
    rw [catalogLoads_listingTexts hdash]
    rfl
  have hpaths : (catalogLoads [] host (listingTexts true os)).map Prod.snd = [core, more] := by
    rw [hloads]
    rfl
  have htext : decodeText (content core) = .ok text := by
    decide +kernel
  have hordinary : Yaml.OrdinaryText text := by
    decide
  have hloaded : (fault? (Catalog.load host core).result).isNone = true := by
    decide +kernel
  have hbreaks : BreaksOff host.stack (content more) (.truth "maybe") := by
    have hother : more ≠ core := by
      decide
    rw [show content more = mistaggedName from if_neg hother]
    exact breaksOff_mistaggedName host.stack
  obtain ⟨hload, hrun⟩ := only_texts_break_off hfiles
  obtain ⟨-, -, hends⟩ := hload core List.mem_cons_self
  obtain ⟨-, hmore, -⟩ := hload more (List.mem_cons_of_mem _ List.mem_cons_self)
  obtain ⟨hbroken, -⟩ := hrun .initial [] true os hdash hpaths
  obtain ⟨c, hc⟩ := exists_ok_of_isNone hloaded
  refine ⟨hfiles, hdash, hpaths, htext, hordinary, hends _ htext hordinary, ?_, ?_⟩
  · exact ((hmore _).mpr ⟨_, hbreaks, rfl⟩).1
  · refine (hbroken _).mpr (.inr ⟨more, _, ?_, rfl⟩)
    rw [hloads]
    exact .later hc (.here hbreaks)

/-- The text is well-formed, but its fault is not reported; the load and the listing break off. -/
theorem load_breaks_off_mistaggedName :
    let host : Host := .ofList [(Path.ofString "names.yaml", .file mistaggedName)]
    let fault : LoadFault := .yaml "names.yaml" (.truth "maybe")
    (Catalog.load host (Path.ofString "names.yaml")).result = .error fault ∧
      fault.isReported = false ∧
      (run .initial [] host ["catalog", "--file", "names.yaml"]).2.ending =
        .broken (.load fault) := by
  intro host fault
  let os : List ListingOption := [.file false "names.yaml"]
  let content : Path → List UInt8 := fun _ => mistaggedName
  have hdash : ∀ o ∈ os, o.value.toList.head? ≠ some (.char '-') := by
    decide
  have hloads : catalogLoads [] host (listingTexts false os) =
      [(host.further, Path.ofString "names.yaml")] := by
    rw [catalogLoads_listingTexts hdash]
    rfl
  have hfile : host.found (Path.ofString "names.yaml") = .file mistaggedName := by
    decide +kernel
  obtain ⟨hload, hbroken⟩ :=
    (Catalog.load_breaks_off_iff hfile).mpr ⟨_, breaksOff_mistaggedName host.stack, rfl⟩
  refine ⟨hload, hbroken, ?_⟩
  have hfiles : ∀ l ∈ catalogLoads [] host (listingTexts false os),
      host.found l.2 = .file (content l.2) := by
    rw [hloads]
    exact List.forall_mem_singleton.mpr hfile
  refine (ending_eq_broken_iff .initial hdash hfiles).mpr
    (.inr ⟨Path.ofString "names.yaml", _, ?_, rfl⟩)
  rw [hloads]
  exact .here (breaksOff_mistaggedName host.further.stack)

end CommandLine

end NameCatalog
