import NameCatalog.Proofs.Name.Grammar

/-!
# Flaws of segments

Segments are checked in the order in which they come, and the first that is no proper one decides
what is said of the whole sequence. Only the texts among the elements matter: an element of any
other kind is as good as none. Of the components of a dotted text nothing but a slash is left to be
wrong, and segments that have passed the check pass it again.
-/

namespace NameCatalog

/-- The text of an operand that is one. -/
def Operand.text? : Operand → Option Text
  | value v => v.text?
  | _ => none

/-- An element is a proper segment if it is a text and the text is one. -/
def IsProper (t : Option Text) : Prop := ∃ s, t = some s ∧ IsSegment s

/-- Why a sequence is not one of segments, told by the texts of its elements. -/
inductive Flaw (part : Part) : List (Option Text) → Reason → Prop
  | noSegments : Flaw part [] (.noSegments part)
  | emptySegment {before after : List (Option Text)} {t : Option Text}
      (hbefore : ∀ x ∈ before, IsProper x) (ht : t = none ∨ t = some "") :
      Flaw part (before ++ t :: after) (.emptySegment part)
  | separator {before after : List (Option Text)} {s : Text}
      (hbefore : ∀ x ∈ before, IsProper x) (hne : s ≠ "")
      (hsep : dot ∈ s.toList ∨ slash ∈ s.toList) :
      Flaw part (before ++ some s :: after) (.separator part s)

/-! ## The first flaw -/

/-- What is wrong with one element. -/
def flaw? (part : Part) : Option Text → Option Reason
  | some s => Segments.offence? part (.text s)
  | none => some (.emptySegment part)

theorem Segments.offence?_eq_flaw? (part : Part) (v : Value) :
    offence? part v = flaw? part v.text? := by
  cases v <;> rfl

theorem Operand.offence?_eq_flaw? (part : Part) (o : Operand) :
    o.offence? part = flaw? part o.text? := by
  cases o with
  | value v => exact Segments.offence?_eq_flaw? part v
  | item i => rfl
  | several parts => rfl

section Flaws

variable {part : Part} {t : Option Text} {ts : List (Option Text)} {reason reason' : Reason}

theorem flaw?_eq_none_iff : flaw? part t = none ↔ IsProper t := by
  constructor
  · intro h
    cases t with
    | none => cases h
    | some s =>
        have hoffence : Segments.offence? part (.text s) = none := h
        obtain ⟨s', hs', hsegment⟩ := Segments.offence?_eq_none hoffence
        cases hs'
        exact ⟨s, rfl, hsegment⟩
  · rintro ⟨s, rfl, hsegment⟩
    exact Segments.offence?_text hsegment

theorem flaw?_some (s : Text) : flaw? part (some s) =
    if s = "" then some (.emptySegment part)
    else if dot ∈ s.toList ∨ slash ∈ s.toList then some (.separator part s) else none := rfl

theorem flaw?_eq_some_iff : flaw? part t = some reason ↔
    ((t = none ∨ t = some "") ∧ reason = .emptySegment part) ∨
      ∃ s, t = some s ∧ s ≠ "" ∧ (dot ∈ s.toList ∨ slash ∈ s.toList) ∧
        reason = .separator part s := by
  cases t with
  | none => simp [flaw?, eq_comm]
  | some s =>
      rw [flaw?_some]
      split
      · next hempty => simp [hempty, eq_comm]
      · next hne =>
          split
          · next hsep => simp [hne, hsep, eq_comm]
          · next hsep => simp [hne, hsep]

/-- The flaw of a sequence is that of the first element that has one. -/
theorem flaw_iff : Flaw part ts reason ↔
    (ts = [] ∧ reason = .noSegments part) ∨ ts.findSome? (flaw? part) = some reason := by
  rw [List.findSome?_eq_some_iff]
  constructor
  · intro h
    cases h with
    | noSegments => exact .inl ⟨rfl, rfl⟩
    | emptySegment hbefore ht =>
        exact .inr ⟨_, _, _, rfl, flaw?_eq_some_iff.mpr (.inl ⟨ht, rfl⟩),
          fun x hx => flaw?_eq_none_iff.mpr (hbefore x hx)⟩
    | separator hbefore hne hsep =>
        exact .inr ⟨_, _, _, rfl, flaw?_eq_some_iff.mpr (.inr ⟨_, rfl, hne, hsep, rfl⟩),
          fun x hx => flaw?_eq_none_iff.mpr (hbefore x hx)⟩
  · rintro (⟨rfl, rfl⟩ | ⟨before, t, after, rfl, ht, hbefore⟩)
    · exact .noSegments
    · have hproper : ∀ x ∈ before, IsProper x := fun x hx => flaw?_eq_none_iff.mp (hbefore x hx)
      rcases flaw?_eq_some_iff.mp ht with ⟨hnone, rfl⟩ | ⟨s, rfl, hne, hsep, rfl⟩
      · exact .emptySegment hproper hnone
      · exact .separator hproper hne hsep

theorem Flaw.unique (h : Flaw part ts reason) (h' : Flaw part ts reason') : reason = reason' := by
  rcases flaw_iff.mp h with ⟨rfl, rfl⟩ | hfirst
  · rcases flaw_iff.mp h' with ⟨-, rfl⟩ | hfirst'
    · rfl
    · cases hfirst'
  · rcases flaw_iff.mp h' with ⟨rfl, -⟩ | hfirst'
    · cases hfirst
    · exact Option.some_inj.mp (hfirst.symm.trans hfirst')

/-- A sequence without a flaw is one of proper segments. -/
theorem forall_not_flaw_iff :
    (∀ reason, ¬ Flaw part ts reason) ↔ ts ≠ [] ∧ ∀ t ∈ ts, IsProper t := by
  constructor
  · intro h
    refine ⟨?_, ?_⟩
    · rintro rfl
      exact h _ .noSegments
    · have hnone : ts.findSome? (flaw? part) = none :=
        Option.eq_none_iff_forall_ne_some.mpr fun reason hfirst =>
          h reason (flaw_iff.mpr (.inr hfirst))
      intro t ht
      exact flaw?_eq_none_iff.mp (List.findSome?_eq_none_iff.mp hnone t ht)
  · rintro ⟨hne, hproper⟩ reason hflaw
    rcases flaw_iff.mp hflaw with ⟨hnil, -⟩ | hfirst
    · exact hne hnil
    · obtain ⟨t, ht, hreason⟩ := List.exists_of_findSome?_eq_some hfirst
      rw [flaw?_eq_none_iff.mpr (hproper t ht)] at hreason
      cases hreason

theorem exists_flaw (ht : t ∈ ts) (h : ¬ IsProper t) : ∃ reason, Flaw part ts reason := by
  by_contra hnone
  exact h ((forall_not_flaw_iff.mp (not_exists.mp hnone)).2 t ht)

end Flaws

theorem Segments.not_flaw {part : Part} (g : Segments) (reason : Reason) :
    ¬ Flaw part (g.toList.map some) reason := by
  refine forall_not_flaw_iff.mpr ⟨?_, ?_⟩ reason
  · simpa using g.ne_nil
  · intro t ht
    obtain ⟨s, hs, rfl⟩ := List.mem_map.mp ht
    exact ⟨s, rfl, g.isSegment s hs⟩

/-! ## Outcomes that the elements decide -/

/-- The outcome of a check that looks at the texts of the elements alone: these texts themselves if
all are proper segments, and otherwise the fault that belongs to the first flaw. -/
structure DecidedBy {ε : Type} (part : Part) (ts : List (Option Text)) (fault : Reason → ε)
    (r : Except ε Segments) : Prop where
  ok_iff : ∀ g, r = .ok g ↔ ts = g.toList.map some
  succeeds_iff : (∃ g, r = .ok g) ↔ ts ≠ [] ∧ ∀ t ∈ ts, IsProper t
  error_iff : ∀ f, r = .error f ↔ ∃ reason, Flaw part ts reason ∧ f = fault reason

namespace DecidedBy

variable {ε ε' : Type} {part : Part} {ts : List (Option Text)} {fault : Reason → ε}
  {r : Except ε Segments}

/-- Each outcome need only be read back: there is a flaw or there is none, and never two. -/
theorem of_read (hok : ∀ g, r = .ok g → ts = g.toList.map some)
    (herror : ∀ f, r = .error f → ∃ reason, Flaw part ts reason ∧ f = fault reason) :
    DecidedBy part ts fault r := by
  have hflaw : ∀ g reason, r = .ok g → ¬ Flaw part ts reason := by
    intro g reason hr
    rw [hok g hr]
    exact g.not_flaw reason
  cases r with
  | ok g =>
      refine ⟨fun g' => ⟨hok g', ?_⟩, ⟨?_, fun _ => ⟨g, rfl⟩⟩, fun f => ⟨herror f, ?_⟩⟩
      · intro hg'
        have hlist : g.toList = g'.toList :=
          List.map_injective_iff.mpr (fun _ _ => Option.some_inj.mp) ((hok g rfl).symm.trans hg')
        rw [Segments.toList_injective hlist]
      · intro _
        exact forall_not_flaw_iff.mp fun reason => hflaw g reason rfl
      · rintro ⟨reason, h, -⟩
        exact absurd h (hflaw g reason rfl)
  | error f =>
      obtain ⟨reason, hreason, hf⟩ := herror f rfl
      refine ⟨fun g => ⟨hok g, ?_⟩, ⟨?_, ?_⟩, fun f' => ⟨herror f', ?_⟩⟩
      · intro hg
        exact absurd (hg ▸ hreason) (g.not_flaw reason)
      · rintro ⟨g, hg⟩
        cases hg
      · intro hproper
        exact absurd hreason (forall_not_flaw_iff.mpr hproper reason)
      · rintro ⟨reason', hreason', rfl⟩
        rw [hf, hreason.unique hreason']

theorem error {reason : Reason} (h : Flaw part ts reason) :
    DecidedBy part ts fault (.error (fault reason)) := by
  refine of_read ?_ ?_
  · intro g hg
    cases hg
  · intro f hf
    exact ⟨reason, h, (Except.error.inj hf).symm⟩

theorem mapError (h : DecidedBy part ts fault r) (wrap : ε → ε') :
    DecidedBy part ts (wrap ∘ fault) (r.mapError wrap) := by
  refine of_read ?_ ?_
  · intro g hg
    exact (h.ok_iff g).mp (mapError_eq_ok_iff.mp hg)
  · intro f hf
    obtain ⟨f', hf', rfl⟩ := mapError_eq_error_iff.mp hf
    obtain ⟨reason, hreason, rfl⟩ := (h.error_iff f').mp hf'
    exact ⟨reason, hreason, rfl⟩

end DecidedBy

/-! ## Values -/

namespace Segments

theorem map_text?_toValues (g : Segments) : g.toValues.map Value.text? = g.toList.map some := by
  rw [toValues, List.map_map]
  rfl

theorem ofValues_decidedBy (part : Part) (items : List Value) :
    DecidedBy part (items.map Value.text?) (.of (.tuple items)) (ofValues part items) := by
  refine .of_read ?_ ?_
  · intro g hg
    rw [ofValues_eq_ok_iff.mp hg, map_text?_toValues]
  · intro m hm
    obtain ⟨reason, rfl, hreason⟩ := ofValues_eq_error hm
    refine ⟨reason, flaw_iff.mpr ?_, rfl⟩
    rw [List.map_eq_nil_iff, List.findSome?_map]
    exact hreason.imp_right fun hfirst =>
      (congrArg items.findSome? (funext (offence?_eq_flaw? part))).symm.trans hfirst

theorem ofValue_decidedBy (part : Part) {v : Value} {items : List Value}
    (h : v.elements? = some items) :
    DecidedBy part (items.map Value.text?) (fun reason => .malformed (.of (.tuple items) reason))
      (ofValue part v) := by
  rw [ofValue_of_elements h]
  exact (ofValues_decidedBy part items).mapError NameFault.malformed

end Segments

/-! ## Operands -/

namespace Operand

theorem asValues_map_value (vs : List Value) : asValues (vs.map value) = .ok vs := by
  induction vs with
  | nil => rfl
  | cons v vs ih =>
      rw [List.map_cons, asValues, ih]
      rfl

theorem ofList_of_asValues {os : List Operand} {vs : List Value} (h : asValues os = .ok vs) :
    ofList os = .value (.tuple vs) := by
  rw [ofList, h]

theorem text?_eq_of_asValue {o : Operand} {v : Value} (h : o.asValue = .ok v) :
    v.text? = o.text? := by
  cases o with
  | value w =>
      cases h
      rfl
  | item i => cases h
  | several parts =>
      obtain ⟨vs, -, rfl⟩ := fmap_eq_ok_iff.mp h
      rfl

theorem map_text?_of_asValues {os : List Operand} {vs : List Value} (h : asValues os = .ok vs) :
    vs.map Value.text? = os.map text? := by
  induction os generalizing vs with
  | nil =>
      cases h
      rfl
  | cons o os ih =>
      obtain ⟨v, hv, hrest⟩ := bind_eq_ok_iff.mp h
      obtain ⟨ws, hws, hpure⟩ := bind_eq_ok_iff.mp hrest
      rw [← pure_eq_ok_iff.mp hpure, List.map_cons, List.map_cons, text?_eq_of_asValue hv, ih hws]

theorem text?_eq_none_of_asValue {o : Operand} {t : Text} (h : o.asValue = .error t) :
    o.text? = none := by
  cases o with
  | value v => cases h
  | item i => rfl
  | several parts => rfl

/-- A value other than a text is gone through by its own elements. -/
theorem exists_elements_of_value {v : Value} {os : List Operand}
    (htext : ∀ s : Text, value v ≠ .value (.text s)) (h : (value v).elements? = some os) :
    ∃ items, v.elements? = some items ∧ items.map value = os := by
  cases v with
  | text s => exact absurd rfl (htext s)
  | _ => exact Option.map_eq_some_iff.mp h

/-- What is no value holds an item, and neither the item nor what it is in is a text. -/
theorem none_mem_of_asValues {os : List Operand} {t : Text} (h : asValues os = .error t) :
    none ∈ os.map text? := by
  induction os with
  | nil => cases h
  | cons o os ih =>
      rw [List.map_cons]
      rcases bind_eq_error_iff.mp h with ho | ⟨v, -, hrest⟩
      · rw [text?_eq_none_of_asValue ho]
        exact List.mem_cons_self
      · rcases bind_eq_error_iff.mp hrest with hos | ⟨ws, -, hpure⟩
        · exact List.mem_cons_of_mem _ (ih hos)
        · exact absurd hpure pure_ne_error

end Operand

namespace Segments

theorem ofOperands_of_flaw {part : Part} {os : List Operand} {t : Text} {reason : Reason}
    (hvalues : Operand.asValues os = .error t)
    (h : Flaw part (os.map Operand.text?) reason) :
    ofOperands part os = .error (.malformed (.of (.ofList os) reason)) := by
  have hlist : Operand.ofList os = .several os := by rw [Operand.ofList, hvalues]
  have hfirst : os.findSome? (Operand.offence? part) = some reason := by
    rw [flaw_iff, List.map_eq_nil_iff, List.findSome?_map] at h
    rcases h with ⟨rfl, -⟩ | hreason
    · cases hvalues
    · exact (congrArg os.findSome? (funext (Operand.offence?_eq_flaw? part))).trans hreason
  rw [ofOperands, hvalues, hlist]
  simp only [hfirst, Option.getD_some]

theorem ofOperands_decidedBy (part : Part) (os : List Operand) :
    DecidedBy part (os.map Operand.text?) (fun reason => .malformed (.of (.ofList os) reason))
      (ofOperands part os) := by
  cases hvalues : Operand.asValues os with
  | ok vs =>
      rw [Operand.ofList_of_asValues hvalues, ← Operand.map_text?_of_asValues hvalues, ofOperands,
        hvalues]
      simp only [← ItemFault.ofMalformed_of]
      exact (ofValues_decidedBy part vs).mapError ItemFault.ofMalformed
  | error t =>
      -- With an item among the elements there is a flaw, and so no default for the reason is used.
      have hnone : ¬ IsProper none := by
        rintro ⟨s, hs, -⟩
        cases hs
      obtain ⟨reason, hreason⟩ : ∃ reason, Flaw part (os.map Operand.text?) reason :=
        exists_flaw (Operand.none_mem_of_asValues hvalues) hnone
      rw [ofOperands_of_flaw hvalues hreason]
      exact .error hreason

theorem ofOperand_decidedBy (part : Part) {o : Operand} {os : List Operand}
    (htext : ∀ s : Text, o ≠ .value (.text s)) (h : o.elements? = some os) :
    DecidedBy part (os.map Operand.text?) (fun reason => .malformed (.of (.ofList os) reason))
      (ofOperand part o) := by
  cases o with
  | value v =>
      obtain ⟨items, hitems, rfl⟩ := Operand.exists_elements_of_value htext h
      rw [Operand.ofList_of_asValues (Operand.asValues_map_value items), List.map_map]
      simp only [← ItemFault.ofMalformed_of]
      exact (ofValue_decidedBy part hitems).mapError ItemFault.ofName
  | item i =>
      simp only [ofOperand, h]
      exact ofOperands_decidedBy part os
  | several parts =>
      simp only [ofOperand, h]
      exact ofOperands_decidedBy part os

end Segments

/-! ## The components of dotted texts -/

theorem empty_mem_components_iff {s : Text} :
    ("" : Text) ∈ components s ↔ [] ∈ Text.pieces dot s.toList := by
  rw [components, List.mem_map]
  constructor
  · rintro ⟨piece, hpiece, hempty⟩
    have hnil : piece = [] := by simpa using congrArg Text.toList hempty
    exact hnil ▸ hpiece
  · intro hnil
    exact ⟨[], hnil, rfl⟩

namespace Segments

variable {part : Part} {s : Text}

/-- Components none of which is empty are checked like any other list. -/
theorem ofDotted_eq_ofValue (h : ("" : Text) ∉ components s) :
    (ofDotted part (.text s)).mapError .malformed =
      ofValue part (.list ((components s).map .text)) := by
  have hempty : [] ∉ Text.pieces dot s.toList := mt empty_mem_components_iff.mpr h
  have hne : s ≠ "" := by
    rintro rfl
    exact hempty (List.mem_singleton_self [])
  rw [ofDotted_text hne hempty, ofValue_of_elements rfl]

/-- Of the components of a text only a slash can be wrong. -/
theorem ofValue_components {f : NameFault} (h : ("" : Text) ∉ components s)
    (hf : ofValue part (.list ((components s).map .text)) = .error f) :
    ∃ before c after, components s = before ++ c :: after ∧
      (∀ t ∈ before, slash ∉ t.toList) ∧ slash ∈ c.toList ∧
        f = .malformed (.refused (.tuple ((components s).map .text)) (.separator part c)) := by
  rw [← ofDotted_eq_ofValue h] at hf
  obtain ⟨m, hm, rfl⟩ := mapError_eq_error_iff.mp hf
  obtain ⟨value, reason, rfl, hrefusal⟩ := refusal_of_ofDotted hm
  have hwritable : Writable.isWritable value = true := hrefusal.isWritable_eq
  rw [Malformed.of_isWritable hwritable]
  cases hrefusal with
  | notText hnot => exact absurd rfl (hnot s)
  | empty => exact absurd (List.mem_singleton_self _) h
  | emptyComponent hne hmem => exact absurd hmem h
  | @slash before after c hparts hbefore hslash =>
      have hcut : components (Text.join "." (before ++ c :: after)) = before ++ c :: after :=
        components_join (by simp) fun t ht => (hparts t ht).2
      rw [hcut]
      exact ⟨before, c, after, rfl, hbefore, hslash, rfl⟩

end Segments

/-! ## The check made twice -/

theorem Package.ofDotted_eq_ofSegments (v : Value) :
    (ofDotted v).mapError .malformed = (do
      let g ← (Segments.ofDotted .package v).mapError .malformed
      ofSegments (.tuple g.toValues)) := by
  cases h : Segments.ofDotted .package v with
  | error m => rw [ofDotted, h]; rfl
  | ok g =>
      have hagain : ofSegments (.tuple g.toValues) = .ok ⟨g⟩ :=
        fmap_eq_ok_iff.mpr ⟨g, Segments.ofValue_toValues .package g, rfl⟩
      rw [ofDotted, h]
      exact hagain.symm

theorem Identifier.ofDottedIn_eq_ofSegmentsIn (package : Operand) (name : Value) :
    ofDottedIn package name = (do
      let g ← (Segments.ofDotted .name name).mapError .malformed
      ofSegmentsIn package (.tuple g.toValues)) := by
  cases h : Segments.ofDotted .name name with
  | error m => rw [ofDottedIn, h]; rfl
  | ok g =>
      cases hp : package.asPackage with
      | error f => simp only [ofDottedIn, ofSegmentsIn, h, hp]; rfl
      | ok p =>
          have hagain : ofSegments p (.tuple g.toValues) = .ok ⟨p, g⟩ :=
            fmap_eq_ok_iff.mpr ⟨g, Segments.ofValue_toValues .name g, rfl⟩
          simp only [ofDottedIn, ofSegmentsIn, h, hp]
          exact hagain.symm

end NameCatalog
