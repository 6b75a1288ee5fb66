import NameCatalog.Proofs.Name.Rendering
import NameCatalog.Session.Construct

/-!
# The grammar of dotted names

A dotted name is told by its text alone: it is not empty, holds no slash, does not begin or end with
a dot, and holds no two dots in a row. Whatever is handed over instead is refused, and the value and
the reason of the refusal tell what it was. A refusal writes the value, so that there is none of a
whole number that is too long to be written, or of what holds one.
-/

namespace NameCatalog

structure DottedGrammar (s : Text) : Prop where
  ne_empty : s ≠ ""
  no_slash : slash ∉ s.toList
  no_dot_first : ¬ [dot] <+: s.toList
  no_dot_last : ¬ [dot] <:+ s.toList
  no_double_dot : ¬ [dot, dot] <:+: s.toList

theorem isDotted_iff_dottedGrammar {s : Text} : IsDotted s ↔ DottedGrammar s := by
  rw [IsDotted, Text.nil_mem_pieces_iff, Text.toList_eq_nil_iff]
  constructor
  · rintro ⟨hne, hslash, hpieces⟩
    simp only [not_or] at hpieces
    exact ⟨hne, hslash, hpieces.2.1, hpieces.2.2.1, hpieces.2.2.2⟩
  · rintro ⟨hne, hslash, hfirst, hlast, hdouble⟩
    exact ⟨hne, hslash, by simp only [not_or]; exact ⟨hne, hfirst, hlast, hdouble⟩⟩

instance (s : Text) : Decidable (DottedGrammar s) := decidable_of_iff _ isDotted_iff_dottedGrammar

theorem Value.isDotted_text_iff {s : Text} : (Value.text s).IsDotted ↔ DottedGrammar s := by
  simp [IsDotted, isDotted_iff_dottedGrammar]

/-- What is handed over is a text within the grammar. -/
def Operand.InGrammar (o : Operand) : Prop := ∃ s, o = .value (.text s) ∧ DottedGrammar s

/-! ## Refusals -/

/-- What is handed over, and the value and the reason with which it is refused. -/
inductive Refusal (part : Part) : Operand → Operand → Reason → Prop
  | notText {o : Operand} (h : ∀ s : Text, o ≠ .value (.text s)) :
      Refusal part o o (.notText part)
  | empty : Refusal part (.value (.text "")) (.value (.text "")) (.notText part)
  | emptyComponent {s : Text} (hne : s ≠ "") (h : ("" : Text) ∈ components s) :
      Refusal part (.value (.text s)) (.value (.text s)) .emptyComponent
  | slash {before after : List Text} {c : Text}
      (hparts : ∀ t ∈ before ++ c :: after, t ≠ "" ∧ dot ∉ t.toList)
      (hbefore : ∀ t ∈ before, slash ∉ t.toList) (hslash : slash ∈ c.toList) :
      Refusal part (.value (.text (Text.join "." (before ++ c :: after))))
        (.value (.tuple ((before ++ c :: after).map .text))) (.separator part c)

namespace Refusal

variable {part : Part} {o value : Operand} {reason : Reason}

/-- What was handed over, read off the refusal. -/
def handedOver : Operand → Reason → Operand
  | .value (.tuple parts), .separator _ _ => .value (.text (Text.join "." (Segments.texts parts)))
  | value, _ => value

theorem handedOver_eq (h : Refusal part o value reason) : handedOver value reason = o := by
  cases h with
  | notText _ =>
      cases o with
      | value v => cases v <;> rfl
      | item i => rfl
      | several parts => rfl
  | empty => rfl
  | emptyComponent _ _ => rfl
  | slash _ _ _ => rw [handedOver, Segments.texts_map]

theorem areWritable_texts (parts : List Text) :
    Value.areWritable (parts.map .text) = true := by
  induction parts with
  | nil => rfl
  | cons part parts ih => simpa [Value.areWritable, Value.isWritable] using ih

/-- Texts can be written, whole or cut up. -/
theorem isWritable_eq (h : Refusal part o value reason) : value.isWritable = o.isWritable := by
  cases h with
  | notText _ => rfl
  | empty => rfl
  | emptyComponent _ _ => rfl
  | slash _ _ _ => exact areWritable_texts _

end Refusal

namespace Segments

theorem ofValues_eq_error {part : Part} {items : List Value} {m : Malformed Value}
    (h : ofValues part items = .error m) :
    ∃ reason, m = .of (.tuple items) reason ∧ (items = [] ∧ reason = .noSegments part ∨
      items.findSome? (offence? part) = some reason) := by
  unfold ofValues at h
  split at h
  · next hnil =>
      cases h
      exact ⟨_, rfl, .inl ⟨hnil, rfl⟩⟩
  · split at h
    · next reason hreason =>
        cases h
        exact ⟨_, rfl, .inr hreason⟩
    · cases h

/-- Of a text that is neither empty nor dotted, only a slash can be wrong. -/
theorem offence?_eq_some {part : Part} {c : Text} {reason : Reason} (hne : c ≠ "")
    (hdot : dot ∉ c.toList) (h : offence? part (.text c) = some reason) :
    slash ∈ c.toList ∧ reason = .separator part c := by
  simp only [offence?, if_neg hne, hdot, false_or] at h
  split at h
  · next hslash => exact ⟨hslash, (Option.some_inj.mp h).symm⟩
  · cases h

theorem ofDotted_of_ne_text {part : Part} {v : Value} (h : ∀ s : Text, v ≠ .text s) :
    ofDotted part v = .error (.of v (.notText part)) := by
  cases v with
  | text s => exact absurd rfl (h s)
  | _ => rfl

theorem refusal_of_ofDotted {part : Part} {v : Value} {m : Malformed Value}
    (h : ofDotted part v = .error m) :
    ∃ value reason, m = .of value reason ∧ Refusal part (.value v) (.value value) reason := by
  by_cases htext : ∀ s : Text, v ≠ .text s
  · rw [ofDotted_of_ne_text htext] at h
    exact ⟨v, _, (Except.error.inj h).symm, .notText fun s hs => htext s (Operand.value.inj hs)⟩
  simp only [not_forall, not_not] at htext
  obtain ⟨s, rfl⟩ := htext
  by_cases hne : s = ""
  · subst hne
    exact ⟨_, _, (Except.error.inj h).symm, .empty⟩
  by_cases hempty : [] ∈ Text.pieces dot s.toList
  · simp only [ofDotted, if_neg hne, if_pos hempty, Except.error.injEq] at h
    exact ⟨_, _, h.symm, .emptyComponent hne (List.mem_map_of_mem hempty)⟩
  -- The components are taken as segments, and the first of them with a slash is refused.
  rw [ofDotted_text hne hempty] at h
  obtain ⟨reason, rfl, ⟨hnil, -⟩ | hfirst⟩ := ofValues_eq_error h
  · exact absurd (List.map_eq_nil_iff.mp hnil) (components_ne_nil s)
  rw [List.findSome?_map, List.findSome?_eq_some_iff] at hfirst
  obtain ⟨before, c, after, hcut, hc, hbefore⟩ := hfirst
  have hparts : ∀ t ∈ before ++ c :: after, t ≠ "" ∧ dot ∉ t.toList := by
    intro t ht
    obtain ⟨htne, htdot, -⟩ := mem_components hempty (hcut ▸ ht)
    exact ⟨htne, htdot⟩
  obtain ⟨hcne, hcdot⟩ := hparts c (by simp)
  obtain ⟨hslash, hreason⟩ := offence?_eq_some hcne hcdot hc
  have hclean : ∀ t ∈ before, slash ∉ t.toList := by
    intro t ht
    obtain ⟨t', ht', hsegment⟩ := offence?_eq_none (hbefore t ht)
    cases ht'
    exact hsegment.2.2
  refine ⟨_, _, rfl, ?_⟩
  rw [hreason, hcut, ← join_components s, hcut]
  exact .slash hparts hclean hslash

theorem exists_refusal (part : Part) {v : Value} (h : ¬ v.IsDotted) :
    ∃ value reason, ofDotted part v = .error (.of value reason) ∧
      Refusal part (.value v) (.value value) reason := by
  cases hread : ofDotted part v with
  | ok g => exact absurd ((Value.isDotted_iff part).mpr ⟨g, hread⟩) h
  | error m =>
      obtain ⟨value, reason, rfl, hrefusal⟩ := refusal_of_ofDotted hread
      exact ⟨value, reason, rfl, hrefusal⟩

/-- A text can always be refused, for it can be written. -/
theorem exists_refused (part : Part) {s : Text} (h : ¬ DottedGrammar s) :
    ∃ value reason, ofDotted part (.text s) = .error (.refused value reason) ∧
      Refusal part (.value (.text s)) (.value value) reason := by
  obtain ⟨value, reason, hread, hrefusal⟩ := exists_refusal part (mt Value.isDotted_text_iff.mp h)
  have hwritable : Writable.isWritable value = true := hrefusal.isWritable_eq
  exact ⟨value, reason, hread.trans (by rw [Malformed.of_isWritable hwritable]), hrefusal⟩

end Segments

/-! ## Constructors -/

/-- The value and the reason of a fault that refuses segments or a dotted name. -/
def ItemFault.refusal? : ItemFault → Option (Operand × Reason)
  | malformed (.refused o reason) => some (o, reason)
  | _ => none

/-- The outcome is a refusal of what was handed over. -/
def Refuses {α : Type} (part : Part) (o : Operand) (r : Except ItemFault α) : Prop :=
  ∃ (f : ItemFault) (value : Operand) (reason : Reason),
    r = .error f ∧ f.refusal? = some (value, reason) ∧ Refusal part o value reason

/-- What is outside the grammar is refused, unless it cannot be written. -/
def Rejects {α : Type} (part : Part) (o : Operand) (r : Except ItemFault α) : Prop :=
  (o.isWritable = true ∧ Refuses part o r) ∨ 
    (o.isWritable = false ∧ r = .error (.malformed .unwritable))

/-- What is refused is rejected. -/
theorem Refusal.rejects {α : Type} {part : Part} {o value : Operand} {reason : Reason}
    (h : Refusal part o value reason) :
    Rejects part o (.error (.malformed (.of value reason)) : Except ItemFault α) := by
  have hwritable : Writable.isWritable value = o.isWritable := h.isWritable_eq
  cases hw : o.isWritable with
  | true =>
      rw [Malformed.of_isWritable (hwritable.trans hw)]
      exact .inl ⟨hw, _, _, _, rfl, rfl, h⟩
  | false =>
      rw [Malformed.of_not_isWritable (hwritable.trans hw)]
      exact .inr ⟨hw, rfl⟩

/-- Refusing a value is refusing it as an operand. -/
theorem ItemFault.ofMalformed_of (v : Value) (reason : Reason) :
    ofMalformed (.of v reason) = .malformed (.of (.value v) reason) := by
  have hsame : Writable.isWritable (Operand.value v) = Writable.isWritable v := rfl
  cases h : Writable.isWritable v with
  | true =>
      rw [Malformed.of_isWritable h, Malformed.of_isWritable (hsame.trans h)]
      rfl
  | false =>
      rw [Malformed.of_not_isWritable h, Malformed.of_not_isWritable (hsame.trans h)]
      rfl

theorem Operand.inGrammar_text_iff {s : Text} :
    (Operand.value (.text s)).InGrammar ↔ DottedGrammar s := by
  simp [InGrammar]

theorem Operand.inGrammar_value_iff {v : Value} :
    (Operand.value v).InGrammar ↔ v.IsDotted := by
  simp only [InGrammar, Value.IsDotted, value.injEq, isDotted_iff_dottedGrammar]

theorem Operand.asPackage_of_ne {o : Operand} (h : ∀ p, o ≠ .item (.package p)) :
    o.asPackage = .error (.notPackage o.typeName) := by
  have hnone : o.package? = none := by
    cases o with
    | item i =>
        cases i with
        | package p => exact absurd rfl (h p)
        | _ => rfl
    | _ => rfl
  rw [asPackage, hnone]

section Rejects

variable {α : Type} {part : Part} {o : Operand} {r : Except ItemFault α}

/-- Outside the grammar the outcome is settled by the segments, or by there being no value. -/
theorem rejects_of_not_inGrammar (h : ¬ o.InGrammar)
    (hvalue : ∀ v m, o = .value v → Segments.ofDotted part v = .error m →
      r = .error (.ofMalformed m))
    (hother : (∀ v, o ≠ .value v) → r = .error (.malformed (.of o (.notText part)))) :
    Rejects part o r := by
  by_cases hv : ∃ v, o = .value v
  · obtain ⟨v, rfl⟩ := hv
    obtain ⟨value, reason, hm, hrefusal⟩ :=
      Segments.exists_refusal part (mt Operand.inGrammar_value_iff.mpr h)
    rw [hvalue v _ rfl hm, ItemFault.ofMalformed_of]
    exact hrefusal.rejects
  · simp only [not_exists] at hv
    rw [hother hv]
    exact Refusal.rejects (.notText fun s => hv (.text s))

theorem not_rejects_ok {a : α} : ¬ Rejects part o (.ok a : Except ItemFault α) := by
  rintro (⟨-, f, value, reason, hf, -⟩ | ⟨-, hf⟩)
  · cases hf
  · cases hf

theorem not_rejects_notPackage {typeName : Text} :
    ¬ Rejects part o (.error (.notPackage typeName) : Except ItemFault α) := by
  rintro (⟨-, f, value, reason, hf, hrefusal, -⟩ | ⟨-, hf⟩)
  · cases hf
    cases hrefusal
  · cases hf

/-- What cannot be written is rejected without being refused. -/
theorem Rejects.not_refuses (h : Rejects part o r) (hwritable : o.isWritable = false) :
    ¬ Refuses part o r := by
  rcases h with ⟨hw, -⟩ | ⟨-, hr⟩
  · rw [hwritable] at hw
    cases hw
  · rintro ⟨f, value, reason, hf, hrefusal, -⟩
    rw [hr] at hf
    cases hf
    cases hrefusal

end Rejects

namespace Segments

theorem spelt_of_toList_eq {g : Segments} {s : Text} (h : g.toList = components s) :
    g.spelt = s.toList.splitOn dot ∧ g.toList.length = 1 + s.toList.count dot := by
  constructor
  · rw [spelt, h, map_toList_components, Text.pieces_eq_splitOn]
  · rw [h, components, List.length_map, Text.length_pieces, Nat.add_comm]

end Segments

namespace Package

theorem ofDottedOperand_eq_ok {o : Operand} {p : Package} (h : ofDottedOperand o = .ok p) :
    ∃ s, o = .value (.text s) ∧ DottedGrammar s ∧ p.segments.toList = components s := by
  cases o with
  | value v =>
      obtain ⟨g, hg, rfl⟩ := fmap_eq_ok_iff.mp (mapError_eq_ok_iff.mp h)
      obtain ⟨s, rfl, hs, hlist⟩ := Segments.ofDotted_eq_ok_iff.mp hg
      exact ⟨s, rfl, isDotted_iff_dottedGrammar.mp hs, hlist⟩
  | item i => cases h
  | several parts => cases h

theorem exists_ofDottedOperand {o : Operand} (h : o.InGrammar) :
    ∃ p, ofDottedOperand o = .ok p := by
  obtain ⟨s, rfl, hs⟩ := h
  have hread := Segments.ofDotted_isDotted .package (isDotted_iff_dottedGrammar.mpr hs)
  exact ⟨_, mapError_eq_ok_iff.mpr (fmap_eq_ok_iff.mpr ⟨_, hread, rfl⟩)⟩

theorem rejects_ofDottedOperand {o : Operand} (h : ¬ o.InGrammar) :
    Rejects .package o (ofDottedOperand o) := by
  refine rejects_of_not_inGrammar h ?_ ?_
  · rintro v m rfl hv
    rw [ofDottedOperand, ofDotted, hv]
    rfl
  · intro hother
    cases o with
    | value v => exact absurd rfl (hother v)
    | item i => rfl
    | several parts => rfl

end Package

namespace Identifier

/-- A name within the grammar makes an identifier of a package, and of nothing else. -/
theorem ofDottedOperand_of_inGrammar (package : Operand) {o : Operand} (h : o.InGrammar) :
    (∃ (p : Package) (x : Identifier) (s : Text), package = .item (.package p) ∧
      ofDottedOperand package o = .ok x ∧ o = .value (.text s) ∧ x.package = p ∧
        x.name.toList = components s) ∨
    ((∀ p, package ≠ .item (.package p)) ∧
      ofDottedOperand package o = .error (.notPackage package.typeName)) := by
  obtain ⟨s, rfl, hs⟩ := h
  have hdotted := isDotted_iff_dottedGrammar.mpr hs
  have hread := Segments.ofDotted_isDotted .name hdotted
  by_cases hpackage : ∃ p, package = .item (.package p)
  · obtain ⟨p, rfl⟩ := hpackage
    refine .inl ⟨p, ⟨p, Segments.ofComponents hdotted⟩, s, rfl, ?_, rfl, rfl, rfl⟩
    rw [ofDottedOperand, ofDottedIn, hread]
    rfl
  · simp only [not_exists] at hpackage
    refine .inr ⟨hpackage, ?_⟩
    rw [ofDottedOperand, ofDottedIn, hread, Operand.asPackage_of_ne hpackage]
    rfl

theorem rejects_ofDottedOperand (package : Operand) {o : Operand} (h : ¬ o.InGrammar) :
    Rejects .name o (ofDottedOperand package o) := by
  refine rejects_of_not_inGrammar h ?_ ?_
  · rintro v m rfl hv
    rw [ofDottedOperand, ofDottedIn, hv]
    rfl
  · intro hother
    cases o with
    | value v => exact absurd rfl (hother v)
    | item i => rfl
    | several parts => rfl

end Identifier

end NameCatalog
