import NameCatalog.Proofs.Name.Grammar
import NameCatalog.Proofs.Text.Quoting

/-!
# What messages tell

A refusal of a text, or of texts in a row, quotes what it refuses. Its message is one printable
line, and the value is told by the message, whatever reason is given behind it.
-/

namespace NameCatalog

namespace Text

theorem joinWith_cons_eq (sep piece : List CodePoint) (rest : List (List CodePoint)) :
    joinWith sep (piece :: rest) = piece ++ rest.flatMap (sep ++ ·) := by
  induction rest generalizing piece with
  | nil => simp [joinWith]
  | cons next rest ih =>
      rw [joinWith_cons (List.cons_ne_nil next rest), ih, List.flatMap_cons, List.append_assoc,
        List.append_assoc]

theorem toList_append_append (front quoted middle back : Text) :
    (front ++ quoted ++ middle ++ back).toList =
      front.toList ++ (quoted.toList ++ (middle.toList ++ back.toList)) := by
  rw [Text.toList_append, Text.toList_append, Text.toList_append, List.append_assoc,
    List.append_assoc]

end Text

/-! ## Texts in a row -/

namespace Value

/-- A text, or texts in a row. -/
inductive Textual : Value → Prop
  | text (s : Text) : Textual (.text s)
  | list (ss : List Text) : Textual (.list (ss.map .text))
  | tuple (ss : List Text) : Textual (.tuple (ss.map .text))

def quotedText (s : Text) : List CodePoint := (Text.quoted s).toList

/-- A quoted text that follows another one. -/
def nextText (s : Text) : List CodePoint := [.char ',', .char ' '] ++ quotedText s

/-- The texts of a tuple behind its first one. -/
def tupleRest : List Text → List CodePoint
  | [] => [',', ')']
  | ss => Text.row nextText ')' ss

theorem literal_text (s : Text) : (text s).literal.toList = quotedText s := by
  rw [literal, quotedText]

theorem literals_texts (ss : List Text) : literals (ss.map .text) = ss.map Text.quoted := by
  rw [literals_eq_map, List.map_map]
  refine List.map_congr_left fun s _ => ?_
  rw [Function.comp_apply, literal]

theorem toList_bracketed (opening closing : Text) (ss : List Text) :
    (bracketed opening closing (ss.map Text.quoted)).toList =
      opening.toList ++
        (Text.joinWith [.char ',', .char ' '] (ss.map quotedText) ++ closing.toList) := by
  have hsep : Text.toList ", " = [.char ',', .char ' '] := by
    decide
  rw [bracketed, Text.toList_append, Text.toList_append, Text.toList_join, List.map_map, hsep,
    List.append_assoc]
  rfl

theorem joinWith_quotedText (s : Text) (ss : List Text) (closing : CodePoint) :
    Text.joinWith [.char ',', .char ' '] ((s :: ss).map quotedText) ++ [closing] =
      quotedText s ++ Text.row nextText closing ss := by
  rw [List.map_cons, Text.joinWith_cons_eq, List.flatMap_map, List.append_assoc]
  rfl

theorem literal_list (ss : List Text) :
    (list (ss.map .text)).literal.toList =
      .char '[' :: Text.listed quotedText ']' (Text.row nextText ']') ss := by
  have hends : Text.toList "[" = [.char '['] ∧ Text.toList "]" = [.char ']'] := by
    decide
  rw [literal, literals_texts, toList_bracketed, hends.1, hends.2, List.singleton_append]
  cases ss with
  | nil => rfl
  | cons s ss => rw [joinWith_quotedText, Text.listed]

theorem literal_tuple (ss : List Text) :
    (tuple (ss.map .text)).literal.toList =
      .char '(' :: Text.listed quotedText ')' tupleRest ss := by
  have hends : Text.toList "(" = [.char '('] ∧ Text.toList ")" = [.char ')'] ∧
      Text.toList ",)" = [.char ',', .char ')'] := by
    decide
  obtain ⟨hopening, hclosing, hsingle⟩ := hends
  rw [literal, literals_texts]
  match ss with
  | [] => exact (toList_bracketed "(" ")" []).trans (by rw [hopening, hclosing]; rfl)
  | [s] =>
      rw [List.map_singleton, tupleText, Text.toList_append, Text.toList_append, hopening,
        hsingle, List.singleton_append, List.cons_append]
      rfl
  | s :: t :: ss =>
      have hparts : tupleText ((s :: t :: ss).map Text.quoted) =
          bracketed "(" ")" ((s :: t :: ss).map Text.quoted) := rfl
      rw [hparts, toList_bracketed, hopening, hclosing, joinWith_quotedText,
        List.singleton_append]
      rfl

theorem prefixFree_quotedText : Text.PrefixFree quotedText := Text.prefixFree_quoted

theorem avoids_quotedText {stop : CodePoint} (h : stop ∉ Text.quotes) :
    Text.Avoids quotedText stop :=
  Text.avoids_quoted h

theorem prefixFree_nextText : Text.PrefixFree nextText := prefixFree_quotedText.behind [',', ' ']

theorem avoids_nextText {stop : CodePoint} (h : stop ≠ ',') : Text.Avoids nextText stop :=
  fun s => ⟨',', .char ' ' :: quotedText s, rfl, h.symm⟩

theorem prefixFree_tupleRest : Text.PrefixFree tupleRest := by
  have hrow : Text.PrefixFree (Text.row nextText ')') :=
    prefixFree_nextText.row (avoids_nextText (by decide))
  intro ss ts h
  cases ss with
  | nil =>
      cases ts with
      | nil => rfl
      | cons t ts =>
          -- Behind the comma one goes on with the end and the other with a space.
          have hnext := (List.cons_prefix_cons.mp h).2
          exact absurd (List.cons_prefix_cons.mp hnext).1 (by decide)
  | cons s ss =>
      cases ts with
      | nil =>
          have hnext := (List.cons_prefix_cons.mp h).2
          exact absurd (List.cons_prefix_cons.mp hnext).1 (by decide)
      | cons t ts => exact hrow h

theorem prefixFree_listed {others : List Text → List CodePoint} {closing : CodePoint}
    (hclosing : closing ∉ Text.quotes) (hothers : Text.PrefixFree others) :
    Text.PrefixFree (Text.listed quotedText closing others) :=
  prefixFree_quotedText.listed (avoids_quotedText hclosing) hothers

namespace Textual

variable {v w : Value}

theorem eq_of_literal_prefix (hv : v.Textual) (hw : w.Textual)
    (h : v.literal.toList <+: w.literal.toList) : v = w := by
  -- Values of different kinds are told by their first characters.
  have hlist : Text.Avoids quotedText '[' := avoids_quotedText (by decide)
  have htuple : Text.Avoids quotedText '(' := avoids_quotedText (by decide)
  cases hv with
  | text s =>
      rw [literal_text] at h
      cases hw with
      | text t =>
          rw [literal_text] at h
          rw [prefixFree_quotedText h]
      | list ts =>
          rw [literal_list] at h
          exact absurd h hlist.not_prefix
      | tuple ts =>
          rw [literal_tuple] at h
          exact absurd h htuple.not_prefix
  | list ss =>
      rw [literal_list] at h
      cases hw with
      | text t =>
          rw [literal_text, ← List.append_nil (quotedText t)] at h
          exact absurd h hlist.not_begins
      | list ts =>
          rw [literal_list] at h
          have hrow : Text.PrefixFree (Text.row nextText ']') :=
            prefixFree_nextText.row (avoids_nextText (by decide))
          rw [prefixFree_listed (by decide) hrow (List.cons_prefix_cons.mp h).2]
      | tuple ts =>
          rw [literal_tuple] at h
          exact absurd (List.cons_prefix_cons.mp h).1 (by decide)
  | tuple ss =>
      rw [literal_tuple] at h
      cases hw with
      | text t =>
          rw [literal_text, ← List.append_nil (quotedText t)] at h
          exact absurd h htuple.not_begins
      | list ts =>
          rw [literal_list] at h
          exact absurd (List.cons_prefix_cons.mp h).1 (by decide)
      | tuple ts =>
          rw [literal_tuple] at h
          rw [prefixFree_listed (by decide) prefixFree_tupleRest (List.cons_prefix_cons.mp h).2]

theorem printable_quotedText (s : Text) : Text.Printable (quotedText s) :=
  Text.printable_quoted s

theorem printable_row (closing : CodePoint) (hclosing : Text.isPrintable closing = true)
    (ss : List Text) : Text.Printable (Text.row nextText closing ss) := by
  refine Text.printable_append.mpr ⟨?_, Text.printable_cons.mpr ⟨hclosing, List.forall_mem_nil _⟩⟩
  intro c hc
  obtain ⟨s, -, hs⟩ := List.mem_flatMap.mp hc
  have hnext : Text.Printable (nextText s) :=
    Text.printable_append.mpr ⟨by decide, printable_quotedText s⟩
  exact hnext c hs

theorem printable_literal (hv : v.Textual) : Text.Printable v.literal.toList := by
  cases hv with
  | text s =>
      rw [literal_text]
      exact printable_quotedText s
  | list ss =>
      rw [literal_list]
      refine Text.printable_cons.mpr ⟨by decide, ?_⟩
      cases ss with
      | nil => exact (by decide : Text.Printable [']'])
      | cons s ss =>
          exact Text.printable_append.mpr ⟨printable_quotedText s, printable_row _ (by decide) ss⟩
  | tuple ss =>
      rw [literal_tuple]
      refine Text.printable_cons.mpr ⟨by decide, ?_⟩
      match ss with
      | [] => exact (by decide : Text.Printable [')'])
      | [s] =>
          exact Text.printable_append.mpr
            ⟨printable_quotedText s, (by decide : Text.Printable [',', ')'])⟩
      | s :: t :: ss =>
          exact Text.printable_append.mpr
            ⟨printable_quotedText s, printable_row _ (by decide) (t :: ss)⟩

/-- A textual value is told by any text that its literal begins. -/
theorem eq_of_append_eq (hv : v.Textual) (hw : w.Textual) {xs ys : List CodePoint}
    (h : v.literal.toList ++ xs = w.literal.toList ++ ys) : v = w := by
  have hcode : Text.PrefixFree fun v : { v : Value // v.Textual } => v.val.literal.toList :=
    fun v w h => Subtype.ext (v.property.eq_of_literal_prefix w.property h)
  have hvalues := hcode.append_inj (a := ⟨v, hv⟩) (b := ⟨w, hw⟩) h
  exact congrArg Subtype.val hvalues.1

end Textual

end Value

/-! ## Messages -/

theorem Part.printable_word_append (part : Part) {s : Text} (h : Text.Printable s.toList) :
    Text.Printable (part.word ++ s).toList := by
  have hword : Text.Printable part.word.toList := by
    cases part with
    | package => decide
    | name => decide
  rw [Text.toList_append]
  exact Text.printable_append.mpr ⟨hword, h⟩

theorem Reason.printable_message (reason : Reason) : Text.Printable reason.message.toList := by
  cases reason with
  | notSequence part => exact part.printable_word_append (by decide)
  | noSegments part => exact part.printable_word_append (by decide)
  | emptySegment part => exact part.printable_word_append (by decide)
  | separator part segment =>
      have hfront : Text.Printable (part.word ++ " segment ").toList :=
        part.printable_word_append (by decide)
      rw [message, Text.toList_append, Text.toList_append]
      exact Text.printable_append.mpr
        ⟨Text.printable_append.mpr ⟨hfront, Text.printable_quoted segment⟩, by decide⟩
  | notText part => exact part.printable_word_append (by decide)
  | emptyComponent => decide

namespace Malformed

variable {v w : Value} {reason reason' : Reason}

theorem toList_message_refused (v : Value) (reason : Reason) :
    (refused v reason).message.toList = Text.toList "Invalid identifier " ++
      (v.literal.toList ++ (Text.toList ": " ++ reason.message.toList)) :=
  Text.toList_append_append _ _ _ _

theorem printable_message (h : v.Textual) (reason : Reason) :
    Text.Printable (refused v reason).message.toList := by
  have hfront : Text.Printable (Text.toList "Invalid identifier ") := by
    decide
  have hcolon : Text.Printable (Text.toList ": ") := by
    decide
  rw [toList_message_refused]
  exact Text.printable_append.mpr ⟨hfront, Text.printable_append.mpr ⟨h.printable_literal,
    Text.printable_append.mpr ⟨hcolon, reason.printable_message⟩⟩⟩

theorem value_eq_of_message_eq (h : v.Textual) (h' : w.Textual)
    (hmessage : (refused v reason).message = (refused w reason').message) : v = w := by
  have hlist := congrArg Text.toList hmessage
  rw [toList_message_refused, toList_message_refused] at hlist
  exact h.eq_of_append_eq h' (List.append_cancel_left hlist)

end Malformed

/-! ## Refusals of texts -/

theorem ItemFault.refusal?_ofName {nf : NameFault} {value : Operand} {reason : Reason}
    (h : (ofName nf).refusal? = some (value, reason)) :
    ∃ v, nf = .malformed (.refused v reason) ∧ value = .value v := by
  cases nf with
  | malformed m =>
      cases m with
      | refused v reason' =>
          cases h
          exact ⟨v, rfl, rfl⟩
      | unwritable => cases h
  | notIterable t => cases h
  | notPackage t => cases h

namespace Segments

variable {part : Part} {v value : Value} {reason : Reason}

theorem textual_of_ofDotted (hv : v.Textual)
    (h : ofDotted part v = .error (.refused value reason)) : value.Textual := by
  obtain ⟨value', reason', hof, hrefusal⟩ := refusal_of_ofDotted h
  obtain ⟨-, rfl, rfl⟩ := Malformed.of_eq_refused_iff.mp hof.symm
  cases hrefusal with
  | notText _ => exact hv
  | empty => exact .text ""
  | emptyComponent _ _ => exact .text _
  | slash _ _ _ => exact .tuple _

theorem textual_of_ofValue (hv : v.Textual)
    (h : ofValue part v = .error (.malformed (.refused value reason))) : value.Textual := by
  have hrow : ∀ ss : List Text, (ofValues part (ss.map .text)).mapError NameFault.malformed =
      .error (.malformed (.refused value reason)) → value.Textual := by
    intro ss hss
    obtain ⟨m, hm, heq⟩ := mapError_eq_error_iff.mp hss
    obtain ⟨reason', hof, -⟩ := ofValues_eq_error hm
    obtain ⟨-, rfl, -⟩ :=
      Malformed.of_eq_refused_iff.mp (hof.symm.trans (NameFault.malformed.inj heq))
    exact .tuple ss
  cases hv with
  | text s =>
      obtain ⟨-, rfl, -⟩ :=
      Malformed.of_eq_refused_iff.mp (NameFault.malformed.inj (Except.error.inj h))
      exact .text s
  | list ss => exact hrow ss h
  | tuple ss => exact hrow ss h

end Segments

theorem Operand.exists_notPackage {p : Operand} {nf : NameFault} (h : p.asPackage = .error nf) :
    ∃ t, nf = .notPackage t := by
  unfold asPackage at h
  split at h
  · cases h
  · exact ⟨_, (Except.error.inj h).symm⟩

/-- What the constructors of packages and identifiers fail with when they are handed a value. -/
inductive FailsWith (v : Value) (f : ItemFault) : Prop
  | package (h : Package.ofDottedOperand v = .error f)
  | packageOfSegments (h : Package.ofOperand v = .error f)
  | identifier (p : Operand) (h : Identifier.ofDottedOperand p v = .error f)
  | identifierOfSegments (p : Operand) (h : Identifier.ofOperand p v = .error f)

/-- The fault refuses `value`, and it was a text or texts in a row that were handed over. -/
def RefusesTexts (f : ItemFault) (value : Operand) : Prop :=
  ∃ v reason, v.Textual ∧ FailsWith v f ∧ f.refusal? = some (value, reason)

namespace FailsWith

variable {v : Value} {f : ItemFault}

/-- A fault comes out of the check of segments or of a dotted name, or there is no package. -/
theorem source (h : FailsWith v f) : ∃ nf, f = .ofName nf ∧
    ((∃ part m, nf = .malformed m ∧ Segments.ofDotted part v = .error m) ∨
      (∃ part, Segments.ofValue part v = .error nf) ∨ ∃ t, nf = .notPackage t) := by
  cases h with
  | package h =>
      obtain ⟨m, hm, rfl⟩ := mapError_eq_error_iff.mp h
      exact ⟨.malformed m, rfl, .inl ⟨.package, m, rfl, fmap_eq_error_iff.mp hm⟩⟩
  | packageOfSegments h =>
      obtain ⟨nf, hnf, rfl⟩ := mapError_eq_error_iff.mp (fmap_eq_error_iff.mp h)
      exact ⟨nf, rfl, .inr (.inl ⟨.package, hnf⟩)⟩
  | identifier p h =>
      obtain ⟨nf, hnf, rfl⟩ := mapError_eq_error_iff.mp h
      refine ⟨nf, rfl, ?_⟩
      rcases bind_eq_error_iff.mp hnf with hdotted | ⟨g, -, hrest⟩
      · obtain ⟨m, hm, rfl⟩ := mapError_eq_error_iff.mp hdotted
        exact .inl ⟨.name, m, rfl, hm⟩
      · rcases bind_eq_error_iff.mp hrest with hp | ⟨p', -, hpure⟩
        · exact .inr (.inr (Operand.exists_notPackage hp))
        · exact absurd hpure pure_ne_error
  | identifierOfSegments p h =>
      obtain ⟨nf, hnf, rfl⟩ := mapError_eq_error_iff.mp h
      refine ⟨nf, rfl, ?_⟩
      rcases bind_eq_error_iff.mp hnf with hp | ⟨p', -, hsegments⟩
      · exact .inr (.inr (Operand.exists_notPackage hp))
      · exact .inr (.inl ⟨.name, fmap_eq_error_iff.mp hsegments⟩)

end FailsWith

theorem RefusesTexts.exists_refused {f : ItemFault} {value : Operand} (h : RefusesTexts f value) :
    ∃ v reason, f.message = (Malformed.refused v reason).message ∧ value = .value v ∧
      v.Textual := by
  obtain ⟨v, reason, hv, hfails, hrefusal⟩ := h
  obtain ⟨nf, rfl, hsource⟩ := hfails.source
  obtain ⟨value, rfl, hvalue⟩ := ItemFault.refusal?_ofName hrefusal
  refine ⟨value, reason, rfl, hvalue, ?_⟩
  rcases hsource with ⟨part, m, hm, hdotted⟩ | ⟨part, hsegments⟩ | ⟨t, ht⟩
  · cases hm
    exact Segments.textual_of_ofDotted hv hdotted
  · exact Segments.textual_of_ofValue hv hsegments
  · cases ht

/-- The message with which a text is refused, or texts in a row, is a single printable line, and it
tells what is refused: different values have different messages. -/
theorem refusal_messages_tell_values :
    (∀ f value, RefusesTexts f value →
      (∀ c ∈ f.message.toList, Text.isPrintable c = true) ∧
        ∀ c ∈ Text.lineBreaks, c ∉ f.message.toList) ∧
      ∀ f f' value value', RefusesTexts f value → RefusesTexts f' value' → value ≠ value' →
        f.message ≠ f'.message := by
  constructor
  · intro f value h
    obtain ⟨v, reason, hmessage, -, htextual⟩ := h.exists_refused
    have hprintable := Malformed.printable_message htextual reason
    rw [hmessage]
    exact ⟨hprintable, hprintable.no_lineBreak⟩
  · intro f f' value value' h h' hne hmessage
    obtain ⟨v, reason, hv, rfl, htextual⟩ := h.exists_refused
    obtain ⟨w, reason', hw, rfl, htextual'⟩ := h'.exists_refused
    have hvalue : v = w :=
      Malformed.value_eq_of_message_eq htextual htextual' (hv.symm.trans (hmessage.trans hw))
    exact hne (congrArg Operand.value hvalue)

/-- A text with a line feed, and a tuple with a line separator and a quote. -/
theorem refusal_messages_tell_values_breaks :
    let broken : Value := .text "a..\n"
    let parts : Value := .tuple [.text "a", .text "\u2028/'"]
    ∃ f f', Package.ofDottedOperand broken = .error f ∧ RefusesTexts f broken ∧
      Package.ofOperand parts = .error f' ∧ RefusesTexts f' parts ∧
      (∀ c ∈ f.message.toList, Text.isPrintable c = true) ∧ .char '\n' ∉ f.message.toList ∧
      (∀ c ∈ f'.message.toList, Text.isPrintable c = true) ∧ .char '\u2028' ∉ f'.message.toList ∧
      f.message ≠ f'.message := by
  intro broken parts
  let f : ItemFault := .malformed (.refused broken .emptyComponent)
  let f' : ItemFault := .malformed (.refused parts (.separator .package "\u2028/'"))
  have hbroken : Package.ofDottedOperand broken = .error f := by
    rfl
  have hparts : Package.ofOperand parts = .error f' := by
    rfl
  have htext : RefusesTexts f broken := ⟨broken, _, .text _, .package hbroken, rfl⟩
  have htexts : RefusesTexts f' parts :=
    ⟨parts, _, .tuple ["a", "\u2028/'"], .packageOfSegments hparts, rfl⟩
  obtain ⟨hline, htell⟩ := refusal_messages_tell_values
  have hne : Operand.value broken ≠ parts := by
    intro h
    exact Value.noConfusion (Operand.value.inj h)
  exact ⟨f, f', hbroken, htext, hparts, htexts, (hline f _ htext).1,
    (hline f _ htext).2 _ (by decide), (hline f' _ htexts).1, (hline f' _ htexts).2 _ (by decide),
    htell f f' _ _ htext htexts hne⟩

end NameCatalog
