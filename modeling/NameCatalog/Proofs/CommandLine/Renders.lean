import NameCatalog.Proofs.CommandLine.Accounts
import NameCatalog.Proofs.CommandLine.JsonListings
import NameCatalog.Proofs.CommandLine.Words
import NameCatalog.Proofs.Name.Correspondence
import NameCatalog.Proofs.Name.Grammar
import NameCatalog.Proofs.Name.Texts

/-!
# Rendering from the command line

A render takes two texts and a form. Where no settings are found, all that it does is decided by the
texts: both have to be dotted names, and what is written is then told by the texts themselves; if
one of them is none, the first such is refused with the message that the constructors have for it.
-/

namespace NameCatalog

namespace Settings

/-- Neither the environment nor a settings file sets anything. -/
structure Unset (environment : List (Text × Text)) (host : Host) : Prop where
  noVariable : ∀ v ∈ environment, ∀ s : Setting, Text.lowerCase v.1 ≠ s.variableName
  noFile : ∀ bytes, host.found filePath ≠ .file bytes
  nothingUnreadable : ∀ number reason, host.found filePath ≠ .unreadable number reason

theorem Unset.statements {environment : List (Text × Text)} {host : Host}
    (h : Unset environment host) : statements host = .ok [] := by
  unfold Settings.statements
  split
  · next bytes hfile => exact absurd hfile (h.noFile bytes)
  · next number reason hfile => exact absurd hfile (h.nothingUnreadable number reason)
  · rfl

theorem Unset.find {environment : List (Text × Text)} {host : Host}
    (h : Unset environment host) (s : Setting) :
    Sources.find ⟨[], environment, EnvFile.variablesOf environment []⟩ s = none := by
  have hnone : Sources.lookupVariable environment s.variableName = none := by
    rw [Sources.lookupVariable, Option.map_eq_none_iff, List.find?_eq_none]
    intro v hv
    simpa using h.noVariable v (List.mem_reverse.mp hv) s
  rw [Sources.find, hnone]
  rfl

theorem Unset.load {environment : List (Text × Text)} {host : Host}
    (h : Unset environment host) :
    load [] environment host = ([], .ok ⟨defaultLevel, []⟩) := by
  simp only [Settings.load, h.statements, ofSources, logLevelOf, catalogFilesOf, h.find]
  rfl

end Settings

namespace CommandLine

/-! ## Words of a render -/

/-- The words of a render in a form. -/
def renderTexts (package name : Text) (form : Form) : List Text :=
  [Command.render.word, package, name, "--style", form.word]

section Words

variable {package name : Text} (hpackage : package.toList.head? ≠ some (.char '-'))
  (hname : name.toList.head? ≠ some (.char '-')) (form : Form)

theorem Form.head?_word : form.word.toList.head? ≠ some (.char '-') := by
  rcases form with style | _
  · cases style <;> decide
  · decide

theorem Form.admits_word : Flag.admits .style (.text form.word) = true := by
  rcases form with style | _
  · cases style <;> decide
  · decide

include hpackage hname

theorem readProgram_renderTexts :
    ∃ words, Word.ofTexts .program (renderTexts package name form) = .ok words ∧
      readProgram .empty words =
        .ok (.empty, some (Command.render.word, [package, name, "--style", form.word])) := by
  have hstyle : Word.Reads .program "--style" ⟨"--style", .unknown⟩ :=
    ⟨by decide, by decide, rfl⟩
  have hcommand : Word.Reads .program Command.render.word ⟨Command.render.word, .argument⟩ :=
    .argument _ (by decide)
  exact ⟨_, Word.ofTexts_eq_ok (.cons hcommand (.cons (.argument _ hpackage)
    (.cons (.argument _ hname) (.cons hstyle (.cons (.argument _ form.head?_word) .nil))))), rfl⟩

theorem commandGiven_renderTexts :
    commandGiven .render [package, name, "--style", form.word] =
      .ok ⟨[(.style, .text form.word)], [.text package, .text name], []⟩ := by
  have hpackage' := Word.Reads.argument (.command .render) hpackage
  have hname' := Word.Reads.argument (.command .render) hname
  have hstyle : Word.Reads (.command .render) "--style" ⟨"--style", .flag .style true none⟩ :=
    ⟨by decide, by decide, rfl⟩
  have hwords := Word.ofTexts_eq_ok (.cons hpackage' (.cons hname' (.cons hstyle
    (.cons (.argument _ form.head?_word) .nil))))
  have hread : readCommand (.command .render) .empty .start false
      [⟨package, .argument⟩, ⟨name, .argument⟩, ⟨"--style", .flag .style true none⟩,
        ⟨form.word, .argument⟩] =
      .ok ⟨[(.style, .text form.word)], [.text package, .text name], []⟩ := by
    have htakes : Flag.takesValue .style = true := rfl
    rw [readCommand_argument (by exact Nat.zero_lt_two) hpackage'.ne_separator,
      readCommand_argument (by exact Nat.one_lt_two) hname'.ne_separator,
      readCommand_flag_value _ htakes nofun form.admits_word]
    rfl
  simp only [commandGiven, hwords, mapError_ok]
  change (readCommand (.command .render) .empty .start false _ >>= _) = _
  rw [hread]
  rfl

theorem Request.ofArguments_renderTexts :
    ofArguments (renderTexts package name form) =
      .ok ⟨false, false, .render (.text package) (.text name) (.text form.word)⟩ := by
  obtain ⟨words, hwords, hprogram⟩ := readProgram_renderTexts hpackage hname form
  refine bind_eq_ok_iff.mpr ⟨words, by rw [hwords, mapError_ok], ?_⟩
  refine bind_eq_ok_iff.mpr ⟨_, hprogram, ?_⟩
  simp only [Command.ofWord?_word, commandGiven_renderTexts hpackage hname form]
  rfl

end Words

/-! ## Texts that make an identifier -/

section Texts

variable {package name : Text}

theorem identifierOf_eq_ok_iff {x : Identifier} :
    identifierOf (.text package) (.text name) = .ok x ↔
      Package.ofDotted (.text package) = .ok x.package ∧
        Identifier.ofDotted x.package (.text name) = .ok x := by
  rw [identifierOf, bind_eq_ok_iff]
  constructor
  · rintro ⟨p, hp, hx⟩
    obtain ⟨rfl, -⟩ := Identifier.ofDotted_eq_ok_iff.mp hx
    exact ⟨hp, hx⟩
  · rintro ⟨hp, hx⟩
    exact ⟨_, hp, hx⟩

/-- The texts that an identifier is made from are those that it renders to. -/
theorem texts_of_identifierOf {x : Identifier}
    (h : identifierOf (.text package) (.text name) = .ok x) :
    x.package.javaName = package ∧ x.dottedName = name := by
  obtain ⟨hp, hx⟩ := identifierOf_eq_ok_iff.mp h
  exact ⟨Package.ofDotted_text_eq_ok_iff.mp hp, (Identifier.ofDotted_text_eq_ok_iff.mp hx).2⟩

theorem exists_identifierOf (hpackage : DottedGrammar package) (hname : DottedGrammar name) :
    ∃ x, identifierOf (.text package) (.text name) = .ok x := by
  obtain ⟨p, hp⟩ := Package.isDotted_iff.mp (Value.isDotted_text_iff.mpr hpackage)
  obtain ⟨x, hx⟩ := (Identifier.isDotted_iff p).mp (Value.isDotted_text_iff.mpr hname)
  exact ⟨x, bind_eq_ok_iff.mpr ⟨p, hp, hx⟩⟩

end Texts

/-! ## What a render shows -/

/-- What a reader of the JSON output finds, told by the texts of the package and the name. -/
def formsOfTexts (package name : Text) : Json :=
  .object [
    ("qualified_name", .text (package ++ "." ++ name)),
    ("internal_class_name", .text (internalText package name)),
    ("short_name", .text (innermost name))]

theorem decoded_eq_formsOfTexts (x : Identifier) :
    decoded x = formsOfTexts x.package.javaName x.dottedName := by
  have hshort : x.name.toList.getLast x.name.ne_nil = innermost x.dottedName := x.shortName_eq
  rw [decoded, formsOfTexts, x.render_java, x.render_internal, hshort]

/-- A text that shows the name of a package's declaration in a form. -/
def Shows (package name : Text) : Form → Text → Prop
  | .one .java, text => text = package ++ "." ++ name
  | .one .internal, text => text = internalText package name
  | .all, text => Json.Decodes text (formsOfTexts package name)

/-- The output takes what is written in a form. JSON is ASCII, which all outputs take. -/
def IsTaken (stream : Stream) (package name : Text) : Form → Prop
  | .one _ => stream.Takes package ∧ stream.Takes name
  | .all => True

/-- The texts can be told from what is written in a form. In JSON, two surrogates that stand for one
character are read as that. -/
def IsTold (package name : Text) : Form → Prop
  | .one _ => True
  | .all => Text.PairFree package.toList ∧ Text.PairFree name.toList

/-- A word as the system hands it over, whatever its bytes are. -/
def IsWord (s : Text) : Prop := ∃ bytes, s = Text.ofList (Text.Utf8.decodeEscaping bytes)

theorem IsWord.pairFree {s : Text} (h : IsWord s) : Text.PairFree s.toList := by
  obtain ⟨bytes, rfl⟩ := h
  rw [Text.toList_ofList]
  exact Text.pairFree_decodeEscaping bytes

theorem IsTold.of_words {package name : Text} (hpackage : IsWord package) (hname : IsWord name)
    (form : Form) : IsTold package name form := by
  cases form with
  | one style => trivial
  | all => exact ⟨hpackage.pairFree, hname.pairFree⟩

theorem Stream.takes_slashed {stream : Stream} {s : Text} :
    stream.Takes (slashed s) ↔ stream.Takes s := by
  have hdot : stream.takes dot = true := stream.takes_ascii dot (by decide)
  have hslash : stream.takes slash = true := stream.takes_ascii slash (by decide)
  rw [Stream.Takes, slashed, Text.toList_ofList, List.forall_mem_map]
  refine forall₂_congr fun c _ => ?_
  split
  · next h => rw [h, hdot, hslash]
  · rfl

theorem takes_render_iff {stream : Stream} (x : Identifier) (style : Style) :
    stream.Takes (x.render style ++ "\n") ↔
      stream.Takes x.package.javaName ∧ stream.Takes x.dottedName := by
  have hdot : stream.Takes "." := stream.takes_of_ascii (by decide)
  have hslash : stream.Takes "/" := stream.takes_of_ascii (by decide)
  have hline : stream.Takes "\n" := stream.takes_of_ascii (by decide)
  cases style with
  | java => simp [x.render_java, hdot, hline]
  | internal => simp [x.render_internal, internalText, Stream.takes_slashed, hslash, hline]

theorem takes_rendered_iff {stream : Stream} (x : Identifier) (form : Form) :
    stream.Takes (rendered x form ++ "\n") ↔
      IsTaken stream x.package.javaName x.dottedName form := by
  cases form with
  | one style => exact takes_render_iff x style
  | all => exact iff_of_true (stream.takes_of_ascii (decodes_rendered x).ascii) trivial

theorem shows_rendered {x : Identifier} {form : Form}
    (h : IsTold x.package.javaName x.dottedName form) :
    Shows x.package.javaName x.dottedName form (rendered x form) := by
  rcases form with style | _
  · cases style with
    | java => exact x.render_java
    | internal => exact x.render_internal
  · have hjoined : Json.Decodes (rendered x .all) (decoded x.withPairsJoined) :=
      (spells_formsOf 0 x).decodes
    rw [Identifier.withPairsJoined_eq_self_iff.mpr (x.pairFree_iff.mpr h)] at hjoined
    rw [Shows, ← decoded_eq_formsOfTexts]
    exact hjoined

/-! ## What a render reports -/

/-- Nothing is logged, and what is written is on one line more. -/
theorem output_render (settings : Settings) (host : Host) (package name : Text) (form : Form) :
    Task.output settings host (.render (.text package) (.text name) (.text form.word)) =
      .silent (match identifierOf (.text package) (.text name) with
        | .error m => .error (.name m)
        | .ok x => written host.output (rendered x form ++ "\n")) := by
  have hform : Form.ofValue? (.text form.word) = some form := Form.ofWord?_word form
  rw [Task.output, Task.text, renderedFrom]
  cases identifierOf (.text package) (.text name) with
  | error m => rfl
  | ok x =>
      simp only [mapError_ok, bind, Except.bind, hform]
      rfl

theorem run_renderTexts (log : LogState) {environment : List (Text × Text)} {host : Host}
    (hunset : Settings.Unset environment host) {package name : Text}
    (hpackage : package.toList.head? ≠ some (.char '-'))
    (hname : name.toList.head? ≠ some (.char '-')) (form : Form) :
    (run log environment host (renderTexts package name form)).2 =
      match identifierOf (.text package) (.text name) with
      | .error m => ⟨.failure (.name m), "", [.bare ("Error: " ++ m.message)]⟩
      | .ok x =>
        match written host.output (rendered x form ++ "\n") with
        | .ok text => ⟨.success, text, []⟩
        | .error f => .ofFault f [] := by
  have hrequest := Request.ofArguments_renderTexts hpackage hname form
  have hsettings : (Settings.load [] environment host).2 = .ok ⟨Settings.defaultLevel, []⟩ :=
    congrArg Prod.snd hunset.load
  rw [Account.run_eq, Account.of_eq_ofSettings hrequest rfl hsettings, hunset.load]
  simp only [Account.ofSettings, output_render]
  cases identifierOf (.text package) (.text name) with
  | error m => rfl
  | ok x =>
      simp only [Logged.silent]
      cases written host.output (rendered x form ++ "\n") with
      | ok text => rfl
      | error f => exact Account.reportAt_ofFault f [] _ [] _ _

/-- The refusal of the package's text or, if that is a dotted name, of the name's. -/
inductive FirstRefusal (package name : Text) : Malformed Value → Prop
  | package {value : Value} {reason : Reason} (h : ¬ DottedGrammar package)
      (hm : Package.ofDotted (.text package) = .error (.refused value reason))
      (hrefusal : Refusal .package (.value (.text package)) (.value value) reason) :
      FirstRefusal package name (.refused value reason)
  | name {value : Value} {reason : Reason} (hpackage : DottedGrammar package)
      (h : ¬ DottedGrammar name)
      (hm : ∀ p, Identifier.ofDotted p (.text name) = .error (.refused value reason))
      (hrefusal : Refusal .name (.value (.text name)) (.value value) reason) :
      FirstRefusal package name (.refused value reason)

theorem exists_firstRefusal {package name : Text}
    (h : ¬ (DottedGrammar package ∧ DottedGrammar name)) :
    ∃ m, identifierOf (.text package) (.text name) = .error m ∧ FirstRefusal package name m := by
  by_cases hpackage : DottedGrammar package
  · have hname : ¬ DottedGrammar name := fun hname => h ⟨hpackage, hname⟩
    obtain ⟨value, reason, hm, hrefusal⟩ := Segments.exists_refused .name hname
    have hall : ∀ p, Identifier.ofDotted p (.text name) = .error (.refused value reason) := by
      intro p
      rw [Identifier.ofDotted, hm]
      rfl
    obtain ⟨p, hp⟩ := Package.isDotted_iff.mp (Value.isDotted_text_iff.mpr hpackage)
    refine ⟨_, ?_, .name hpackage hname hall hrefusal⟩
    rw [identifierOf, hp]
    exact hall p
  · obtain ⟨value, reason, hm, hrefusal⟩ := Segments.exists_refused .package hpackage
    have hp : Package.ofDotted (.text package) = .error (.refused value reason) := by
      rw [Package.ofDotted, hm]
      rfl
    refine ⟨_, ?_, .package hpackage hp hrefusal⟩
    rw [identifierOf, hp]
    rfl

end CommandLine

end NameCatalog
