import NameCatalog.Text.Pieces
import NameCatalog.Value

/-!
# Segments

A package and a name within it are both spelt by segments: one or more texts, none of them empty,
none with a dot or a slash in it. Segments come from any value, either as they are or cut out of a
dotted text; a value that is no such thing is malformed for a stated reason.
-/

namespace NameCatalog

inductive Part where
  | package
  | name
deriving DecidableEq, Repr

def Part.word : Part → Text
  | .package => "package"
  | .name => "name"

def dot : CodePoint := '.'

def slash : CodePoint := '/'

def separators : List CodePoint := [dot, slash]

def IsSegment (s : Text) : Prop :=
  s ≠ "" ∧ dot ∉ s.toList ∧ slash ∉ s.toList

instance (s : Text) : Decidable (IsSegment s) :=
  inferInstanceAs (Decidable (_ ∧ _))

inductive Reason where
  | notSequence (part : Part)
  | noSegments (part : Part)
  | emptySegment (part : Part)
  | separator (part : Part) (segment : Text)
  | notText (part : Part)
  | emptyComponent
deriving DecidableEq, Repr

def Reason.message : Reason → Text
  | .notSequence part => part.word ++ " segments must be a sequence, not a string"
  | .noSegments part => part.word ++ " has no segments"
  | .emptySegment part => part.word ++ " contains an empty segment"
  | .separator part segment =>
    part.word ++ " segment " ++ Text.quoted segment ++ " contains a separator"
  | .notText part => part.word ++ " must be a non-empty string"
  | .emptyComponent => "empty dot-separated components are not allowed"

/-- What has a text in messages, unless there is something in it that cannot be written. -/
class Writable (α : Type) where
  literal : α → Text
  isWritable : α → Bool

instance : Writable Value := ⟨Value.literal, Value.isWritable⟩

/-- What is said against something malformed. A refusal is made by writing what is refused; where
that cannot be written, nothing is said but that. -/
inductive Malformed (α : Type) where
  | refused (value : α) (reason : Reason)
  | unwritable
deriving Repr

namespace Malformed

variable {α : Type} [Writable α]

/-- Refuses for a reason. -/
def of (value : α) (reason : Reason) : Malformed α :=
  if Writable.isWritable value then refused value reason else unwritable

def report (value : α) (reason : Text) : Text :=
  "Invalid identifier " ++ Writable.literal value ++ ": " ++ reason

def message : Malformed α → Text
  | refused value reason => report value reason.message
  | unwritable => Value.unwritableText

def map {α β : Type} (f : α → β) : Malformed α → Malformed β
  | refused value reason => refused (f value) reason
  | unwritable => unwritable

theorem of_isWritable {value : α} (h : Writable.isWritable value = true) (reason : Reason) :
    of value reason = refused value reason := if_pos h

theorem of_not_isWritable {value : α} (h : Writable.isWritable value = false) (reason : Reason) :
    of value reason = unwritable := if_neg (by simp [h])

/-- Only the value itself is ever refused, and it can be written. -/
theorem of_eq_refused_iff {value value' : α} {reason reason' : Reason} :
    of value reason = refused value' reason' ↔
      Writable.isWritable value = true ∧ value = value' ∧ reason = reason' := by
  cases h : Writable.isWritable value with
  | true => simp [of_isWritable h]
  | false => simp [of_not_isWritable h]

end Malformed

structure Segments where
  toList : List Text
  ne_nil : toList ≠ []
  isSegment : ∀ s ∈ toList, IsSegment s
deriving DecidableEq, Repr

namespace Segments

def offence? (part : Part) : Value → Option Reason
  | .text s =>
    if s = "" then some (.emptySegment part)
    else if dot ∈ s.toList ∨ slash ∈ s.toList then some (.separator part s)
    else none
  | _ => some (.emptySegment part)

def texts : List Value → List Text
  | [] => []
  | .text s :: rest => s :: texts rest
  | _ :: rest => texts rest

theorem texts_map (ss : List Text) : texts (ss.map Value.text) = ss := by
  induction ss with
  | nil => rfl
  | cons s ss ih => simp [texts, ih]

theorem offence?_eq_none {part : Part} {v : Value} (h : offence? part v = none) :
    ∃ s, v = .text s ∧ IsSegment s := by
  cases v with
  | text s =>
      refine ⟨s, rfl, ?_⟩
      simp only [offence?] at h
      split at h
      · simp at h
      · split at h
        · simp at h
        · next hne hsep =>
            simp only [not_or] at hsep
            exact ⟨hne, hsep.1, hsep.2⟩
  | _ => simp [offence?] at h

theorem offence?_text {part : Part} {s : Text} (h : IsSegment s) :
    offence? part (.text s) = none := by
  obtain ⟨hne, hdot, hslash⟩ := h
  simp [offence?, hne, hdot, hslash]

theorem findSome?_offence_eq_none {part : Part} {items : List Value}
    (h : items.findSome? (offence? part) = none) :
    items = (texts items).map Value.text ∧ ∀ s ∈ texts items, IsSegment s := by
  induction items with
  | nil => simp [texts]
  | cons v items ih =>
      rw [List.findSome?_cons] at h
      cases hv : offence? part v with
      | some reason => simp [hv] at h
      | none =>
          rw [hv] at h
          obtain ⟨s, rfl, hs⟩ := offence?_eq_none hv
          obtain ⟨heq, hall⟩ := ih h
          refine ⟨by simpa [texts] using heq, ?_⟩
          intro t ht
          rcases List.mem_cons.mp ht with rfl | ht
          · exact hs
          · exact hall t ht

theorem texts_ne_nil {part : Part} {items : List Value} (hne : items ≠ [])
    (h : items.findSome? (offence? part) = none) : texts items ≠ [] := by
  intro hnil
  rw [(findSome?_offence_eq_none h).1, hnil] at hne
  exact hne rfl

/-- Segments from a sequence of values: the first offending element decides. -/
def ofValues (part : Part) (items : List Value) : Except (Malformed Value) Segments :=
  if hne : items = [] then .error (.of (.tuple items) (.noSegments part))
  else
    match h : items.findSome? (offence? part) with
    | some reason => .error (.of (.tuple items) reason)
    | none =>
      .ok ⟨texts items, texts_ne_nil hne h, (findSome?_offence_eq_none h).2⟩

def ofDotted (part : Part) (v : Value) : Except (Malformed Value) Segments :=
  match v with
  | .text s =>
    if s = "" then .error (.of v (.notText part))
    else
      let components := Text.pieces dot s.toList
      if [] ∈ components then .error (.of v .emptyComponent)
      else ofValues part (components.map fun cs => .text (Text.ofList cs))
  | _ => .error (.of v (.notText part))

def toValues (g : Segments) : List Value := g.toList.map Value.text

def joined (sep : CodePoint) (g : Segments) : Text :=
  Text.join (Text.singleton sep) g.toList

def last (g : Segments) : Text := g.toList.getLast g.ne_nil

/-- Segments are segments again. -/
theorem ofValues_toValues (part : Part) (g : Segments) : ofValues part g.toValues = .ok g := by
  have hnone : g.toValues.findSome? (offence? part) = none := by
    rw [List.findSome?_eq_none_iff]
    intro v hv
    obtain ⟨s, hs, rfl⟩ := List.mem_map.mp hv
    exact offence?_text (g.isSegment s hs)
  have hne : g.toValues ≠ [] := by simpa [toValues] using g.ne_nil
  unfold ofValues
  rw [dif_neg hne]
  split
  · next h => rw [hnone] at h; simp at h
  · cases g with
    | mk ss _ _ => simp [toValues, texts_map]

end Segments

end NameCatalog
