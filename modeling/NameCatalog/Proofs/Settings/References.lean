import Mathlib.Data.List.Basic
import NameCatalog.Proofs.Outcome
import NameCatalog.Proofs.Settings.CatalogFiles

/-!
# Setting one variable

The values of a settings file may refer to variables of the environment, so that a variable which is
set shows in the file only through references to it. The level of the log has nothing to do with the
catalog files but for that.
-/

namespace NameCatalog

namespace EnvFile

/-- The names that a text refers to. -/
def references (cs : List CodePoint) : List Text :=
  match cs with
  | [] => []
  | .char '$' :: .char '\x7b' :: inner =>
    match h : readReference inner with
    | some (name, _, rest) =>
      have := length_readReference h
      name :: references rest
    | none => references (.char '\x7b' :: inner)
  | _ :: cs => references cs
termination_by cs.length

theorem expand_congr {value? other? : Text → Option (Option Text)} {cs : List CodePoint}
    (h : ∀ name ∈ references cs, value? name = other? name) :
    expand value? cs = expand other? cs := by
  -- `references` follows the text as `expand` does, so that their cases are the same
  fun_induction references cs with
  | case1 => simp only [expand]
  | case2 inner name standIn rest hread hshort ih =>
      have hname : value? name = other? name := h name List.mem_cons_self
      have hrest := ih fun other hother => h other (List.mem_cons_of_mem name hother)
      rw [expand, expand]
      split
      · next hsame =>
          rw [hread] at hsame
          cases hsame
          simp only [hname, hrest]
      · next hnone =>
          rw [hread] at hnone
          cases hnone
  | case3 inner hread ih =>
      rw [expand, expand]
      split
      · next hsome =>
          rw [hread] at hsome
          cases hsome
      · rw [ih h]
  | case4 c cs hc ih =>
      rw [expand, expand, ih h]
      · exact hc
      · exact hc

def Statement.Refers (name : Text) : Statement → Prop
  | .assign _ (some text) => name ∈ references text.toList
  | _ => False

instance (name : Text) (s : Statement) : Decidable (s.Refers name) :=
  match s with
  | .assign _ (some text) => inferInstanceAs (Decidable (name ∈ references text.toList))
  | .assign _ none => .isFalse id
  | .comment => .isFalse id
  | .unreadable => .isFalse id

/-- What is not referred to does not matter. -/
theorem assignAll_congr {environment other : List (Text × Text)} {name : Text}
    (hother : ∀ n, n ≠ name → environment.reverse.lookup n = other.reverse.lookup n)
    {ss : List Statement} (h : ∀ s ∈ ss, ¬ s.Refers name) (vars : List Variable) :
    assignAll environment vars ss = assignAll other vars ss := by
  induction ss generalizing vars with
  | nil => rfl
  | cons s ss ih =>
      have hrest := ih fun t ht => h t (List.mem_cons_of_mem s ht)
      cases s with
      | comment => exact hrest vars
      | unreadable => exact hrest vars
      | assign key value =>
          cases value with
          | none => exact hrest _
          | some text =>
              have hnot : name ∉ references text.toList := h _ List.mem_cons_self
              simp only [assignAll, Option.map_some, hrest]
              rw [expand_congr]
              intro n hn
              rw [hother n (ne_of_mem_of_not_mem hn hnot)]

theorem variablesOf_congr {environment other : List (Text × Text)} {name : Text}
    (hother : ∀ n, n ≠ name → environment.reverse.lookup n = other.reverse.lookup n)
    {ss : List (Nat × Statement)} (h : ∀ s ∈ ss, ¬ s.2.Refers name) :
    variablesOf environment ss = variablesOf other ss := by
  refine assignAll_congr hother ?_ []
  intro s hs
  obtain ⟨x, hx, rfl⟩ := List.mem_map.mp hs
  exact h x hx

end EnvFile

namespace Settings

open Sources

/-- The variables with one of them set, which keeps its place when it was there before. -/
def withVariable (vars : List (Text × Text)) (name text : Text) : List (Text × Text) :=
  match vars with
  | [] => [(name, text)]
  | v :: rest => if v.1 = name then (name, text) :: rest else v :: withVariable rest name text

variable {vars : List (Text × Text)} {name : Text}

theorem lookup_withVariable_ne (vars : List (Text × Text)) (text : Text) {other : Text}
    (h : other ≠ name) :
    (withVariable vars name text).reverse.lookup other = vars.reverse.lookup other := by
  induction vars with
  | nil => simp [withVariable, h]
  | cons v rest ih =>
      unfold withVariable
      split
      · next hname =>
          obtain ⟨key, value⟩ := v
          have hkey : (other == name) = false := by simpa using h
          have hsame : (other == key) = false := by rwa [show key = name from hname]
          simp [List.lookup_append, List.lookup_cons, hkey, hsame]
      · rw [List.reverse_cons, List.reverse_cons, List.lookup_append, List.lookup_append, ih]

theorem lookupVariable_withVariable_ne (vars : List (Text × Text)) (text : Text)
    {variableName : Text} (h : Text.lowerCase name ≠ variableName) :
    lookupVariable (withVariable vars name text) variableName =
      lookupVariable vars variableName := by
  induction vars with
  | nil => simp [withVariable, lookupVariable, h]
  | cons v rest ih =>
      unfold withVariable
      split
      · next hname => simp only [lookupVariable_cons, hname, if_neg h]
      · rw [lookupVariable_cons, lookupVariable_cons, ih]

/-- The variable has the text, unless another spelling of its name comes later. -/
theorem lookupVariable_withVariable (vars : List (Text × Text)) (name text : Text) :
    ∃ value, lookupVariable (withVariable vars name text) (Text.lowerCase name) = some value ∧
      (value = text ∨ lookupVariable vars (Text.lowerCase name) = some value) := by
  induction vars with
  | nil => exact ⟨text, by simp [withVariable, lookupVariable], .inl rfl⟩
  | cons v rest ih =>
      unfold withVariable
      split
      · cases hrest : lookupVariable rest (Text.lowerCase name) with
        | none => exact ⟨text, by simp [lookupVariable_cons, hrest], .inl rfl⟩
        | some value =>
            refine ⟨value, ?_, .inr ?_⟩
            · simp [lookupVariable_cons, hrest]
            · simp [lookupVariable_cons, hrest]
      · obtain ⟨value, hvalue, hwhich⟩ := ih
        refine ⟨value, by simp [lookupVariable_cons, hvalue], hwhich.imp_right fun h => ?_⟩
        simp [lookupVariable_cons, h]

/-- The text of the catalog files, wherever it comes from, once the settings file can be read. -/
def filesValue (environment : List (Text × Text)) (host : Host) :
    Except SettingsFault (Option Value) :=
  (statements host).map fun ss =>
    Sources.find ⟨[], environment, EnvFile.variablesOf environment ss⟩ .catalogFiles

theorem filesValue_withVariable_of_lookup (host : Host) (text : Text) {given : Text}
    (hname : Text.lowerCase name ≠ Setting.catalogFiles.variableName)
    (h : lookupVariable vars Setting.catalogFiles.variableName = some given) :
    filesValue (withVariable vars name text) host = filesValue vars host := by
  have hset := lookupVariable_withVariable_ne vars text hname
  rw [h] at hset
  simp only [filesValue, find_of_lookupVariable hset, find_of_lookupVariable h]

/-- Without a reference to the variable the settings file is the same for all its texts. -/
theorem filesValue_withVariable_of_not_refers {host : Host} (text : Text)
    (hname : Text.lowerCase name ≠ Setting.catalogFiles.variableName)
    (h : ∀ ss, statements host = .ok ss → ∀ s ∈ ss, ¬ s.2.Refers name) :
    filesValue (withVariable vars name text) host = filesValue vars host := by
  unfold filesValue
  cases hstatements : statements host with
  | error f =>
      -- by `rfl` the kernel would compare the values under the two environments
      simp only [Except.map]
  | ok ss =>
      have hsame : EnvFile.variablesOf (withVariable vars name text) ss =
          EnvFile.variablesOf vars ss :=
        EnvFile.variablesOf_congr (fun n hn => lookup_withVariable_ne vars text hn)
          (h ss hstatements)
      have hlookup := lookupVariable_withVariable_ne vars text hname
      simp only [Except.map, Sources.find, hsame, hlookup]

theorem hasLevel_of_lookup {text : Text} {level : Severity}
    (h : lookupVariable vars Setting.logLevel.variableName = some text)
    (htext : readLevel (.text text) = .ok level) (host : Host) : HasLevel vars host := by
  intro ss _
  refine ⟨level, ?_⟩
  simp only [logLevelOf, find_of_lookupVariable h, htext]

theorem hasLevel_withVariable {host : Host} {text : Text} {level : Severity}
    (hname : Text.lowerCase name = Setting.logLevel.variableName) (h : HasLevel vars host)
    (htext : readLevel (.text text) = .ok level) :
    HasLevel (withVariable vars name text) host := by
  obtain ⟨value, hvalue, hwhich⟩ := lookupVariable_withVariable vars name text
  rw [hname] at hvalue hwhich
  rcases hwhich with rfl | hbefore
  · exact hasLevel_of_lookup hvalue htext host
  · intro ss hss
    have hlevel := h ss hss
    simp only [logLevelOf, find_of_lookupVariable hbefore] at hlevel
    simp only [logLevelOf, find_of_lookupVariable hvalue, hlevel]

theorem catalogFiles_ofSources {src : Sources} {level : Severity} (h : logLevelOf src = .ok level) :
    (ofSources src).map catalogFiles = catalogFilesOf src := by
  rw [ofSources, h]
  cases catalogFilesOf src with
  | ok paths => rfl
  | error faults => rfl

/-- A level that is valid does not matter to the rest of the settings. -/
theorem load_congr {environment other : List (Text × Text)} {host : Host}
    (h : HasLevel environment host) (hother : HasLevel other host)
    (hfiles : filesValue other host = filesValue environment host) :
    (load [] other host).1 = (load [] environment host).1 ∧
      (load [] other host).2.map catalogFiles = (load [] environment host).2.map catalogFiles := by
  unfold filesValue at hfiles
  unfold load
  cases hstatements : statements host with
  | error f => exact ⟨rfl, rfl⟩
  | ok ss =>
      rw [hstatements] at hfiles
      obtain ⟨level, hlevel⟩ := h ss hstatements
      obtain ⟨otherLevel, hotherLevel⟩ := hother ss hstatements
      refine ⟨rfl, ?_⟩
      simp only [map_mapError, catalogFiles_ofSources hlevel, catalogFiles_ofSources hotherLevel,
        catalogFilesOf, Except.ok.inj hfiles]

end Settings

end NameCatalog
