import NameCatalog.Catalog.Load
import NameCatalog.Proofs.Outcome
import NameCatalog.Proofs.Yaml.Values

/-!
# Files that cannot be loaded

A file cannot be loaded because its bytes are no text, its text stands for no value, or the value is
no catalog. Only the text can break a load off. Ordinary text does so when it takes more than the
stack or has a number of too many groups of sixtieths, and for no other reason.
-/

namespace NameCatalog

theorem Yaml.Stack.ends_read (stack : Yaml.Stack) {cs : List CodePoint} (h : Yaml.OrdinaryText cs) :
    Ends Yaml.Fault.Ordinary (fun _ => True) (stack.read cs) :=
  Ends.ite (fun _ => .error Yaml.Fault.ordinary_tooDeep) fun _ => Yaml.ends_read h

namespace LoadFault

variable (path detail : Text)

@[simp] theorem isReported_ofYaml (f : Yaml.Fault) :
    (ofYaml path detail f).isReported = f.isReported := by
  cases f <;> rfl

/-- A fault that breaks a load off has no details. -/
theorem ofYaml_of_not_isReported {f : Yaml.Fault} (h : f.isReported = false) :
    ofYaml path detail f = .yaml path f := by
  cases f with
  | invalid => cases h
  | _ => rfl

end LoadFault

/-- What is wrong with the content of a catalog file. -/
inductive FaultOf (host : Host) (path : Text) (bytes : List UInt8) : LoadFault → Prop
  | encoding {f : Text.Utf8.Fault} (h : decodeText bytes = .error f) :
      FaultOf host path bytes (.encoding f)
  | yaml {cs : List CodePoint} {f : Yaml.Fault} (htext : decodeText bytes = .ok cs)
      (h : host.stack.read cs = .error f) :
      FaultOf host path bytes (.ofYaml path (host.yamlDetail cs) f)
  | document {doc : Value} {f : DocumentFault} (hdoc : readDocument host path bytes = .ok doc)
      (h : Document.names doc = .error f) : FaultOf host path bytes (.document path f)

/-- The text has a fault that is not reported. -/
def BreaksOff (stack : Yaml.Stack) (bytes : List UInt8) (f : Yaml.Fault) : Prop :=
  f.isReported = false ∧ ∃ cs, decodeText bytes = .ok cs ∧ stack.read cs = .error f

variable {host : Host} {p : Path} {bytes : List UInt8}

theorem readDocument_eq_error_iff {path : Text} {f : LoadFault} :
    readDocument host path bytes = .error f ↔
      (∃ g, decodeText bytes = .error g ∧ .encoding g = f) ∨
        ∃ cs g, decodeText bytes = .ok cs ∧ host.stack.read cs = .error g ∧
          .ofYaml path (host.yamlDetail cs) g = f := by
  cases htext : decodeText bytes with
  | error g => simp [readDocument, htext, bind_eq_error_iff]
  | ok cs =>
      cases hread : host.stack.read cs with
      | error g => simp [readDocument, htext, hread, bind_eq_error_iff, fmap_eq_error_iff]
      | ok d => simp [readDocument, htext, hread, bind_eq_error_iff, fmap_eq_error_iff]

namespace Catalog

theorem result_ofDocument_eq_error_iff {path : Text} {doc : Value} {f : DocumentFault} :
    (ofDocument path doc).result = .error f ↔ Document.names doc = .error f := by
  unfold ofDocument
  split
  · next g hnames => simp [Logged.silent, hnames]
  · next names hnames => simp [hnames]

theorem result_ofBytes_eq_error_iff {path : Text} {f : LoadFault} :
    (ofBytes host path bytes).result = .error f ↔ FaultOf host path bytes f := by
  unfold ofBytes
  constructor
  · intro h
    split at h
    · next g hdoc =>
        cases h
        rcases readDocument_eq_error_iff.mp hdoc with ⟨g, htext, rfl⟩ | ⟨cs, g, htext, hread, rfl⟩
        · exact .encoding htext
        · exact .yaml htext hread
    · next doc hdoc =>
        obtain ⟨g, hnames, rfl⟩ := mapError_eq_error_iff.mp h
        exact .document hdoc (result_ofDocument_eq_error_iff.mp hnames)
  · intro h
    cases h with
    | encoding htext =>
        rw [readDocument_eq_error_iff.mpr (.inl ⟨_, htext, rfl⟩)]
        rfl
    | yaml htext hread =>
        rw [readDocument_eq_error_iff.mpr (.inr ⟨_, _, htext, hread, rfl⟩)]
        rfl
    | document hdoc hnames =>
        rw [hdoc]
        exact mapError_eq_error_iff.mpr ⟨_, result_ofDocument_eq_error_iff.mpr hnames, rfl⟩

theorem result_load_eq_error_iff (hfile : host.found p = .file bytes) {f : LoadFault} :
    (load host p).result = .error f ↔ FaultOf host p.toString bytes f := by
  rw [load, hfile]
  exact result_ofBytes_eq_error_iff

theorem load_breaks_off_iff (hfile : host.found p = .file bytes) {f : LoadFault} :
    (load host p).result = .error f ∧ f.isReported = false ↔
      ∃ g, BreaksOff host.stack bytes g ∧ f = .yaml p.toString g := by
  rw [result_load_eq_error_iff hfile]
  constructor
  · rintro ⟨hfault, hbroken⟩
    cases hfault with
    | encoding _ => cases hbroken
    | yaml htext hread =>
        rw [LoadFault.isReported_ofYaml] at hbroken
        exact ⟨_, ⟨hbroken, _, htext, hread⟩, LoadFault.ofYaml_of_not_isReported _ _ hbroken⟩
    | document _ _ => cases hbroken
  · rintro ⟨g, ⟨hbroken, cs, htext, hread⟩, rfl⟩
    have hfault : FaultOf host p.toString bytes _ := .yaml htext hread
    rw [LoadFault.ofYaml_of_not_isReported _ _ hbroken] at hfault
    exact ⟨hfault, hbroken⟩

/-- What a load of ordinary text ends with. -/
theorem ends_load {cs : List CodePoint} (hfile : host.found p = .file bytes)
    (htext : decodeText bytes = .ok cs) (h : Yaml.OrdinaryText cs) :
    Ends (fun f => f.isReported = true ∨ f = .yaml p.toString .tooDeep ∨
      f = .yaml p.toString .hugePower) (fun _ => True) (load host p).result := by
  cases hload : (load host p).result with
  | ok c => exact .ok trivial
  | error f =>
      refine .error ?_
      cases (result_load_eq_error_iff hfile).mp hload with
      | encoding _ => exact .inl rfl
      | document _ _ => exact .inl rfl
      | yaml htext' hread =>
          cases htext.symm.trans htext'
          rcases (host.stack.ends_read h).of_error hread with hreported | rfl | rfl
          · exact .inl ((LoadFault.isReported_ofYaml _ _ _).trans hreported)
          · exact .inr (.inl rfl)
          · exact .inr (.inr rfl)

/-! ## Several files -/

/-- The first of some loads that fails is of a file whose text breaks it off. -/
inductive FirstBreak (content : Path → List UInt8) : List (Host × Path) → Path → Yaml.Fault → Prop
  | here {host : Host} {p : Path} {rest : List (Host × Path)} {f : Yaml.Fault}
      (h : BreaksOff host.stack (content p) f) : FirstBreak content ((host, p) :: rest) p f
  | later {host : Host} {p q : Path} {rest : List (Host × Path)} {f : Yaml.Fault} {c : Catalog}
      (hload : (load host p).result = .ok c) (h : FirstBreak content rest q f) :
      FirstBreak content ((host, p) :: rest) q f

theorem mapM_load_breaks_off_iff {content : Path → List UInt8} {loads : List (Host × Path)}
    (hfiles : ∀ l ∈ loads, l.1.found l.2 = .file (content l.2)) {f : LoadFault} :
    (loads.mapM fun l => (load l.1 l.2).result) = .error f ∧ f.isReported = false ↔
      ∃ p g, FirstBreak content loads p g ∧ f = .yaml p.toString g := by
  -- the first file fails itself, or it is loaded and the others decide
  induction loads with
  | nil =>
      constructor
      · rintro ⟨h, -⟩
        cases h
      · rintro ⟨p, g, ⟨⟩, -⟩
  | cons l loads ih =>
      obtain ⟨host, p⟩ := l
      obtain ⟨hfile, hfiles⟩ := List.forall_mem_cons.mp hfiles
      rw [List.mapM_cons, bind_eq_error_iff]
      constructor
      · rintro ⟨hhere | ⟨c, hload, hrest⟩, hbroken⟩
        · obtain ⟨g, hg, rfl⟩ := (load_breaks_off_iff hfile).mp ⟨hhere, hbroken⟩
          exact ⟨p, g, .here hg, rfl⟩
        · rcases bind_eq_error_iff.mp hrest with hrest | ⟨cs, _, hpure⟩
          · obtain ⟨q, g, hg, rfl⟩ := (ih hfiles).mp ⟨hrest, hbroken⟩
            exact ⟨q, g, .later hload hg, rfl⟩
          · cases hpure
      · rintro ⟨q, g, hfirst, rfl⟩
        cases hfirst with
        | here hg =>
            obtain ⟨hhere, hbroken⟩ := (load_breaks_off_iff hfile).mpr ⟨g, hg, rfl⟩
            exact ⟨.inl hhere, hbroken⟩
        | later hload hg =>
            obtain ⟨hrest, hbroken⟩ := (ih hfiles).mpr ⟨q, g, hg, rfl⟩
            exact ⟨.inr ⟨_, hload, bind_eq_error_iff.mpr (.inl hrest)⟩, hbroken⟩

end Catalog

end NameCatalog
