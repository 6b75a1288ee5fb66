import NameCatalog.Proofs.Catalog.Duplicates
import NameCatalog.Proofs.Catalog.Reordering

/-!
# What loading and building log

A load that fails logs nothing, since a file is read to its end before anything is said of it.
Building logs what its loads log, in order, up to the first that fails; when none does, the merge
warns of each name that was there already.
-/

namespace NameCatalog

/-- The messages of the notices, in order. -/
def Logged.messages {α : Type} (x : Logged α) : List Message := x.notices.map Notice.message

/-- The warning that a name stands in a source already. -/
def repeatWarning (source : Text) (x : Identifier) : Message :=
  ⟨.warning, "lintnames.catalog.schemas",
    "Duplicate name " ++ x.qualifiedName ++ " in " ++ source ++ " (keeping first)"⟩

/-- The line that tells how many names a file has brought. -/
def loadedLine (path : Text) (count : Nat) : Message :=
  ⟨.debug, "lintnames.catalog.loader", "Loaded " ++ toString count ++ " names from " ++ path⟩

theorem map_message_duplicate (source : Text) (xs : List Identifier) :
    (xs.map (Notice.duplicate · source)).map Notice.message = xs.map (repeatWarning source) := by
  rw [List.map_map]
  rfl

namespace Catalog

variable {host : Host} {p : Path} {c : Catalog} {f : LoadFault}

/-! ## One file -/

/-- The names that the document of a file gives, entry by entry, with all those that come again. -/
def givenNames (host : Host) (path : Text) (bytes : List UInt8) :
    Except LoadFault (List Identifier) := do
  let doc ← readDocument host path bytes
  (Document.names doc).mapError (.document path)

/-- All of the document is read before anything is logged. -/
theorem ofBytes_eq (host : Host) (path : Text) (bytes : List UInt8) :
    ofBytes host path bytes =
      match givenNames host path bytes with
      | .error f => .silent (.error f)
      | .ok names =>
        let made := ofNames path names
        ⟨made.notices ++ [.loaded made.result.size path], .ok made.result⟩ := by
  rw [ofBytes, givenNames]
  cases readDocument host path bytes with
  | error f => rfl
  | ok doc =>
      simp only [ofDocument]
      cases hnames : Document.names doc with
      | error f => simp [bind, Except.bind, hnames, Logged.map, Logged.silent]
      | ok names => simp [bind, Except.bind, hnames, Logged.map, Except.mapError]

/-- A load that fails logs nothing; otherwise all is told by the names that the file gives. -/
theorem load_cases (host : Host) (p : Path) :
    (∃ f, load host p = .silent (.error f)) ∨
      ∃ bytes names, host.found p = .file bytes ∧ givenNames host p.toString bytes = .ok names ∧
        load host p =
          ⟨(ofNames p.toString names).notices ++
            [.loaded (ofNames p.toString names).result.size p.toString],
            .ok (ofNames p.toString names).result⟩ := by
  unfold load
  cases hfound : host.found p with
  | file bytes =>
      simp only [ofBytes_eq]
      cases hnames : givenNames host p.toString bytes with
      | error g => exact .inl ⟨g, rfl⟩
      | ok names => exact .inr ⟨bytes, names, rfl, hnames, rfl⟩
  | _ => exact .inl ⟨_, rfl⟩

theorem notices_load_of_error (h : (load host p).result = .error f) :
    (load host p).notices = [] := by
  rcases load_cases host p with ⟨g, hload⟩ | ⟨bytes, names, -, -, hload⟩
  · rw [hload]
    rfl
  · rw [hload] at h
    cases h

theorem load_of_ok (h : (load host p).result = .ok c) :
    ∃ bytes names, host.found p = .file bytes ∧ givenNames host p.toString bytes = .ok names ∧
      c = (ofNames p.toString names).result ∧
      (load host p).notices =
        (ofNames p.toString names).notices ++ [.loaded c.size p.toString] := by
  rcases load_cases host p with ⟨g, hload⟩ | ⟨bytes, names, hfile, hnames, hload⟩
  · rw [hload] at h
    cases h
  · rw [hload] at h ⊢
    cases h
    exact ⟨bytes, names, hfile, hnames, rfl, rfl⟩

theorem source_of_load (h : (load host p).result = .ok c) : c.source = p.toString := by
  obtain ⟨bytes, names, -, -, rfl, -⟩ := load_of_ok h
  rfl

/-! ## A merge behind a catalog -/

/-- The names of a catalog that one of the catalogs in front of it has already. -/
def oldNames (before : List Catalog) (c : Catalog) : List Identifier :=
  c.names.filter fun x => ∃ d ∈ before, x ∈ d.names

theorem repeatsAfter_flatMap_names {seen : List Identifier} {before : List Catalog}
    (h : ∀ x, x ∈ seen ↔ ∃ d ∈ before, x ∈ d.names) (cs : List Catalog) :
    repeatsAfter seen (cs.flatMap names) =
      cs.zipIdx.flatMap fun c => oldNames (before ++ cs.take c.2) c.1 := by
  induction cs generalizing seen before with
  | nil => rfl
  | cons c cs ih =>
      have hhere : repeatsAfter seen c.names = oldNames before c := by
        rw [repeatsAfter_eq_filter c.nodup, oldNames]
        apply List.filter_congr
        intro x _
        exact decide_eq_decide.mpr (h x)
      have hseen : ∀ x, x ∈ c.names ++ seen ↔ ∃ d ∈ before ++ [c], x ∈ d.names := by
        intro x
        simp only [List.mem_append, h, List.mem_singleton, or_and_right, exists_or, exists_eq_left]
        exact or_comm
      rw [List.flatMap_cons, repeatsAfter_append, hhere, ih hseen, List.zipIdx_cons,
        List.zipIdx_succ, List.flatMap_cons, List.flatMap_map, List.take_zero, List.append_nil]
      simp only [List.append_assoc, List.singleton_append, List.take_succ_cons]

/-- The first catalog repeats nothing; each other repeats what those in front of it have. -/
theorem notices_merge_cons (d : Catalog) (cs : List Catalog) :
    (merge (d :: cs)).notices =
      (cs.zipIdx.flatMap fun c => oldNames (d :: cs.take c.2) c.1).map
        (.duplicate · (mergedSource (d :: cs))) := by
  have hseen : ∀ x, x ∈ d.names ↔ ∃ e ∈ [d], x ∈ e.names := by
    simp
  have hrepeats : repeats ((d :: cs).flatMap names) =
      cs.zipIdx.flatMap fun c => oldNames (d :: cs.take c.2) c.1 := by
    rw [List.flatMap_cons, repeats_append, repeats_eq_nil d.nodup, List.nil_append,
      repeatsAfter_flatMap_names hseen]
    rfl
  rw [merge, ofNames, hrepeats]

theorem mergedSource_builtin (cs : List Catalog) :
    mergedSource (Builtin.catalog :: cs) = Text.join ", " ("builtin:runtime" :: cs.map source) := by
  cases cs with
  | nil => decide
  | cons c cs => exact mergedSource_cons_cons Builtin.catalog c cs

/-! ## Several files -/

variable {before paths : List Path} {cs : List Catalog}

theorem map_source_of_loads (h : (paths.map fun p => (load host p).result) = cs.map .ok) :
    cs.map source = paths.map Path.toString := by
  induction paths generalizing cs with
  | nil =>
      obtain rfl : cs = [] := List.map_eq_nil_iff.mp h.symm
      rfl
  | cons p paths ih =>
      cases cs with
      | nil => cases h
      | cons c cs =>
          obtain ⟨hp, hpaths⟩ := List.cons.inj h
          rw [List.map_cons, List.map_cons, source_of_load hp, ih hpaths]

theorem build_of_first_error (hbefore : ∀ q ∈ before, ∃ c, (load host q).result = .ok c)
    (hp : (load host p).result = .error f) (after : List Path) :
    build host (before ++ p :: after) =
      ⟨before.flatMap fun q => (load host q).notices, .error f⟩ := by
  rw [build, loadAll_of_first_error hbefore hp, notices_load_of_error hp, List.append_nil]
  rfl

/-- A load looks at no path but its own. -/
theorem load_congr {found : Path → Found} (h : found p = host.found p) :
    load { host with found := found } p = load host p := by
  unfold load
  simp only [h]
  rfl

/-- What stands behind the first file that cannot be loaded is not read. -/
theorem build_congr_of_first_error (hbefore : ∀ q ∈ before, ∃ c, (load host q).result = .ok c)
    (hp : (load host p).result = .error f) {found : Path → Found}
    (hfound : ∀ q ∈ before ++ [p], found q = host.found q) (after later : List Path) :
    build { host with found := found } (before ++ p :: later) =
      build host (before ++ p :: after) := by
  obtain ⟨hsame, hsameAt⟩ := List.forall_mem_append.mp hfound
  have hload : ∀ q ∈ before, load { host with found := found } q = load host q :=
    fun q hq => load_congr (hsame q hq)
  have hloadAt := load_congr (hsameAt p (List.mem_singleton.mpr rfl))
  have hothers : ∀ q ∈ before, ∃ c, (load { host with found := found } q).result = .ok c := by
    intro q hq
    rw [hload q hq]
    exact hbefore q hq
  rw [build_of_first_error hbefore hp, build_of_first_error hothers (hloadAt ▸ hp)]
  have hnotices : (before.flatMap fun q => (load { host with found := found } q).notices) =
      before.flatMap fun q => (load host q).notices :=
    List.flatMap_congr fun q hq => congrArg Logged.notices (hload q hq)
  rw [hnotices]

/-- A load that fails logs nothing. One that succeeds logs a warning for each place at which its
document gives a name again, in order and with the path, and then one line with the number of names.
Building logs what the loads log, in order, and then a warning for each name of a file that is
built in or in a file before it, with all sources. When a file cannot be loaded, building logs what
the files in front of the first such file log, and ends with the fault of that one; it does not
matter what the files behind it are. -/
theorem build_logs_in_order (host : Host) :
    (∀ p : Path,
      match (load host p).result with
      | .error _ => (load host p).messages = []
      | .ok c => ∃ bytes names, host.found p = .file bytes ∧
          givenNames host p.toString bytes = .ok names ∧
          c.names = picked (fun before x => x ∉ before) names ∧
          (load host p).messages =
            (picked (fun before x => x ∈ before) names).map (repeatWarning p.toString) ++
              [loadedLine p.toString c.size]) ∧
    ∀ paths : List Path,
      (∃ cs : List Catalog, (paths.map fun p => (load host p).result) = cs.map .ok ∧
        (build host paths).result = .ok (merge (Builtin.catalog :: cs)).result ∧
        (build host paths).messages =
          (paths.flatMap fun p => (load host p).messages) ++
            (cs.zipIdx.flatMap fun c => oldNames (Builtin.catalog :: cs.take c.2) c.1).map
              (repeatWarning (Text.join ", " ("builtin:runtime" :: paths.map Path.toString)))) ∨
      ∃ before p after f, paths = before ++ p :: after ∧
        (∀ q ∈ before, ∃ c, (load host q).result = .ok c) ∧ (load host p).result = .error f ∧
        (build host paths).result = .error f ∧
        ((build host paths).messages = before.flatMap fun q => (load host q).messages) ∧
        ∀ (found : Path → Found) (later : List Path),
          (∀ q ∈ before ++ [p], found q = host.found q) →
            build { host with found := found } (before ++ p :: later) = build host paths := by
  refine ⟨?_, ?_⟩
  · intro p
    cases h : (load host p).result with
    | error f =>
        simp only [Logged.messages, notices_load_of_error h]
        rfl
    | ok c =>
        obtain ⟨bytes, names, hfile, hnames, rfl, hnotices⟩ := load_of_ok h
        refine ⟨bytes, names, hfile, hnames, names_ofNames _ _, ?_⟩
        rw [Logged.messages, hnotices, notices_ofNames, List.map_append, map_message_duplicate]
        rfl
  · intro paths
    rcases all_ok_or_first_error (fun p => (load host p).result) paths with
      ⟨cs, hcs⟩ | ⟨before, p, after, f, rfl, hbefore, hp⟩
    · refine .inl ⟨cs, hcs, congrArg Logged.result (build_of_ok hcs), ?_⟩
      rw [Logged.messages, build_of_ok hcs, List.map_append, List.map_flatMap, notices_merge_cons,
        map_message_duplicate, mergedSource_builtin, map_source_of_loads hcs]
      rfl
    · have hbuild := build_of_first_error hbefore hp after
      refine .inr ⟨before, p, after, f, rfl, hbefore, hp, congrArg Logged.result hbuild, ?_, ?_⟩
      · rw [Logged.messages, hbuild, List.map_flatMap]
        rfl
      · intro found later hfound
        exact build_congr_of_first_error hbefore hp hfound after later

/-- A file with a built-in name, and with a name that it repeats, stands in front of a missing
one. -/
theorem build_logs_in_order_missing_file :
    let core := Path.ofString "core.yaml"
    let more := Path.ofString "more.yaml"
    let text := "packages:\n- package: androidx.compose.runtime\n  names: [remember, Key, Key]\n"
    let host : Host := .ofList [(core, .file text.toUTF8.toList)]
    (∃ f, (build host [core, more, core]).result = .error f) ∧
      (build host [core, more, core]).messages =
        [⟨.warning, "lintnames.catalog.schemas",
          "Duplicate name androidx.compose.runtime.Key in core.yaml (keeping first)"⟩,
          ⟨.debug, "lintnames.catalog.loader", "Loaded 2 names from core.yaml"⟩] ∧
      ∀ later : List Path,
        build host (core :: more :: later) = build host [core, more, core] := by
  intro core more text host
  have hcore : (fault? (load host core).result).isNone = true := by
    decide +kernel
  obtain ⟨c, hc⟩ := exists_ok_of_isNone hcore
  have hmore : ∀ d, (load host more).result ≠ .ok d := by
    have hmissing : (fault? (load host more).result).isSome = true := by
      decide +kernel
    intro d hd
    rw [hd] at hmissing
    cases hmissing
  have hmessages : (load host core).messages =
      [⟨.warning, "lintnames.catalog.schemas",
        "Duplicate name androidx.compose.runtime.Key in core.yaml (keeping first)"⟩,
        ⟨.debug, "lintnames.catalog.loader", "Loaded 2 names from core.yaml"⟩] := by
    decide +kernel
  obtain ⟨-, hbuild⟩ := build_logs_in_order host
  rcases hbuild [core, more, core] with
    ⟨cs, hcs, -⟩ | ⟨before, p, after, f, hpaths, hbefore, hp, hresult, hlog, hlater⟩
  · obtain ⟨d, hd⟩ := exists_mapM_eq_ok_iff.mp ⟨cs, mapM_eq_ok_iff.mpr hcs⟩ more (by simp)
    exact absurd hd (hmore d)
  · -- the first file is loaded and the second is not
    obtain ⟨rfl, rfl⟩ : before = [core] ∧ p = more := by
      cases before with
      | nil =>
          obtain ⟨rfl, -⟩ := List.cons.inj hpaths
          rw [hc] at hp
          cases hp
      | cons q before =>
          obtain ⟨rfl, htail⟩ := List.cons.inj hpaths
          cases before with
          | nil => exact ⟨rfl, (List.cons.inj htail).1.symm⟩
          | cons r before =>
              obtain ⟨rfl, -⟩ := List.cons.inj htail
              obtain ⟨d, hd⟩ := hbefore more (by simp)
              exact absurd hd (hmore d)
    refine ⟨⟨f, hresult⟩, ?_, fun later => hlater host.found later fun _ _ => rfl⟩
    rw [hlog, List.flatMap_singleton, hmessages]

end Catalog

end NameCatalog
