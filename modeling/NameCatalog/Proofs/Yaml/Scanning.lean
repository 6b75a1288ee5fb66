import NameCatalog.Proofs.Outcome
import NameCatalog.Yaml.BlockScalar
import NameCatalog.Yaml.FlowScalar
import NameCatalog.Yaml.Property

/-!
# Scanning ordinary text

Ordinary text has no tags and no escapes. A scan only moves forward, so that it stays in such text,
and few things can go wrong with it: what is left to read is always a part of the text from some
place on.
-/

namespace NameCatalog.Yaml

/-- A fault that ordinary text can have. Of those that break a run off these are nesting that is too
deep and numbers with too many groups of sixtieths. -/
def Fault.Ordinary (f : Fault) : Prop := f.isReported = true ∨ f = .tooDeep ∨ f = .hugePower

theorem Fault.ordinary_invalid : Fault.Ordinary .invalid := .inl rfl

theorem Fault.ordinary_tooDeep : Fault.Ordinary .tooDeep := .inr (.inl rfl)

/-- Text without exclamation marks, which begin tags, and backslashes, which begin escapes. -/
def OrdinaryText (cs : List CodePoint) : Prop := ∀ c ∈ cs, c ≠ '!' ∧ c ≠ '\\'

instance (cs : List CodePoint) : Decidable (OrdinaryText cs) :=
  List.decidableBAll (fun c : CodePoint => c ≠ '!' ∧ c ≠ '\\') cs

theorem OrdinaryText.of_suffix {cs ds : List CodePoint} (h : OrdinaryText ds)
    (hsuffix : cs <:+ ds) :
    OrdinaryText cs :=
  fun c hc => h c (hsuffix.subset hc)

/-! ## Cursors -/

namespace Cursor

theorem drop_suffix (c : Cursor) (n : Nat) : (c.drop n).chars <:+ c.chars := by
  induction n generalizing c with
  | zero => exact List.suffix_rfl
  | succ n ih =>
      unfold drop
      split
      · exact List.suffix_rfl
      · next x rest hchars =>
          rw [hchars]
          exact (ih _).trans (List.suffix_cons x rest)

theorem takeWhile_suffix (c : Cursor) (p : CodePoint → Bool) :
    (c.takeWhile p).2.chars <:+ c.chars :=
  List.dropWhile_suffix p

theorem dropWhile_suffix (c : Cursor) (p : CodePoint → Bool) : (c.dropWhile p).chars <:+ c.chars :=
  c.takeWhile_suffix p

theorem lineBreak_suffix (c : Cursor) : c.lineBreak.2.chars <:+ c.chars := by
  unfold lineBreak
  split
  · exact List.suffix_rfl
  · next x rest hchars =>
      rw [hchars]
      split
      · exact List.suffix_cons x rest
      · exact hchars ▸ List.suffix_rfl

end Cursor

/-- A scan that ends somewhere further on, or with an ordinary fault. -/
def Scans {α : Type} (cs : List CodePoint) : Except Fault (α × Cursor) → Prop :=
  Ends Fault.Ordinary fun p => p.2.chars <:+ cs

/-- Text that is no YAML document may be refused at any step. -/
theorem ends_invalid {α : Type} {P : α → Prop} : Ends Fault.Ordinary P (.error .invalid) :=
  .error (.inl rfl)

/-! ## Names and directives -/

namespace Property

theorem scans_name (c : Cursor) : Scans c.chars (name c) := by
  simp only [name]
  split
  · exact ends_invalid
  · exact .ok (c.takeWhile_suffix isWordChar)

theorem handle_eq_error {c : Cursor} (h : OrdinaryText c.chars) : handle c = .error .invalid := by
  unfold handle
  split
  · next rest hchars =>
      rw [hchars] at h
      exact absurd rfl (h '!' List.mem_cons_self).1
  · rfl

theorem tagDirective_eq_error {c : Cursor} (h : OrdinaryText c.chars) :
    tagDirective c = .error .invalid := by
  rw [tagDirective, handle_eq_error (h.of_suffix (c.dropWhile_suffix _))]
  rfl

theorem scans_versionNumber (c : Cursor) : Scans c.chars (versionNumber c) := by
  simp only [versionNumber]
  split
  · exact ends_invalid
  · split
    · exact .error (.inl rfl)
    · exact .ok (c.takeWhile_suffix CodePoint.isDigit)

theorem restOfLine_suffix (c : Cursor) :
    Ends Fault.Ordinary (fun next => next.chars <:+ c.chars) (restOfLine c) := by
  have hspaces := c.dropWhile_suffix (· == .char ' ')
  refine Ends.ite (fun _ => .ok ?_) (fun _ => ends_invalid)
  refine (Cursor.lineBreak_suffix _).trans ?_
  split
  · exact (Cursor.dropWhile_suffix _ _).trans hspaces
  · exact hspaces

theorem scans_version (c : Cursor) : Scans c.chars (version c) := by
  have hspaces := c.dropWhile_suffix (· == .char ' ')
  refine (scans_versionNumber _).bind ?_
  rintro ⟨major, next⟩ hmajor
  refine Ends.ite (fun _ => ends_invalid) (fun _ => ?_)
  refine (scans_versionNumber _).bind ?_
  rintro ⟨minor, behind⟩ hminor
  refine Ends.ite (fun _ => ends_invalid) (fun _ => ?_)
  exact .ok (hminor.trans ((next.drop_suffix 1).trans (hmajor.trans hspaces)))

theorem scans_directive {c : Cursor} (h : OrdinaryText c.chars) : Scans c.chars (directive c) := by
  have hword := c.takeWhile_suffix isWordChar
  have hline {d : Directive} {next : Cursor} (hnext : next.chars <:+ c.chars) :
      Scans c.chars (do return (d, ← restOfLine next)) := by
    refine (restOfLine_suffix next).bind ?_
    intro behind hbehind
    exact .ok (hbehind.trans hnext)
  refine Ends.ite (fun _ => ends_invalid) (fun _ => ?_)
  refine Ends.ite (fun _ => ?_) (fun _ => Ends.ite (fun _ => ?_) (fun _ => ?_))
  · refine (scans_version _).bind ?_
    rintro ⟨d, next⟩ hnext
    exact hline (hnext.trans hword)
  · change Ends _ _ (tagDirective (c.takeWhile isWordChar).2 >>= _)
    rw [tagDirective_eq_error (h.of_suffix hword)]
    exact ends_invalid
  · exact hline ((Cursor.dropWhile_suffix _ _).trans hword)

end Property

/-! ## Block scalars -/

namespace Block

theorem header_suffix {c next : Cursor} {h : Header} (hheader : header c = some (h, next)) :
    next.chars <:+ c.chars := by
  have hdrop (n : Nat) : (c.drop n).chars <:+ c.chars := c.drop_suffix n
  unfold header at hheader
  grind

theorem restOfLine_suffix {c next : Cursor} (h : restOfLine c = some next) :
    next.chars <:+ c.chars := by
  have hspaces := c.dropWhile_suffix (· == .char ' ')
  simp only [restOfLine, Option.ite_none_right_eq_some, Option.some.injEq] at h
  obtain ⟨-, rfl⟩ := h
  refine (Cursor.lineBreak_suffix _).trans ?_
  split
  · exact (Cursor.dropWhile_suffix _ _).trans hspaces
  · exact hspaces

theorem leading_suffix (deepest : Nat) (p : Position) (cs : List CodePoint) :
    (leading deepest p cs).2.2.chars <:+ cs := by
  fun_induction leading deepest p cs with
  | case1 => exact List.suffix_rfl
  | case2 deepest p c rest _ breaks least next hread ih =>
      rw [hread] at ih
      exact ih.trans (List.suffix_cons c rest)
  | case3 deepest p rest _ ih => exact ih.trans (List.suffix_cons _ rest)
  | case4 => exact List.suffix_rfl

theorem breaks_suffix (indent : Nat) (p : Position) (cs : List CodePoint) :
    (breaks indent p cs).2.chars <:+ cs := by
  fun_induction breaks indent p cs with
  | case1 => exact List.suffix_rfl
  | case2 p c rest _ ih => exact ih.trans (List.suffix_cons c rest)
  | case3 p c rest _ _ more next hread ih =>
      rw [hread] at ih
      exact ih.trans (List.suffix_cons c rest)
  | case4 => exact List.suffix_rfl

theorem lines_suffix (folding : Bool) (indent fuel : Nat) (gap : List CodePoint) (c : Cursor) :
    (lines folding indent fuel gap c).cursor.chars <:+ c.chars := by
  have hline {c afterLine afterBreak next : Cursor} {line last nextGap : List CodePoint}
      (hline : c.takeWhile (!isBreak ·) = (line, afterLine))
      (hbreak : afterLine.lineBreak = (last, afterBreak))
      (hgap : breaks indent afterBreak.position afterBreak.chars = (nextGap, next)) :
      next.chars <:+ c.chars := by
    have hnext := breaks_suffix indent afterBreak.position afterBreak.chars
    have hafter := afterLine.lineBreak_suffix
    have hread := c.takeWhile_suffix (!isBreak ·)
    rw [hgap] at hnext
    rw [hbreak] at hafter
    rw [hline] at hread
    exact hnext.trans (hafter.trans hread)
  fun_induction lines folding indent fuel gap c with
  | case1 => exact List.suffix_rfl
  | case2 fuel gap c _ line afterLine h₁ last afterBreak h₂ nextGap next h₃ _ _ _ ih =>
      exact ih.trans (hline h₁ h₂ h₃)
  | case3 fuel gap c _ line afterLine h₁ last afterBreak h₂ nextGap next h₃ _ =>
      exact hline h₁ h₂ h₃
  | case4 => exact List.suffix_rfl

theorem scans_read (folding : Bool) (parent : Int) (c : Cursor) :
    Scans c.chars (read folding parent c) := by
  unfold read
  split
  · exact ends_invalid
  · next head next hheader =>
      have hnext := header_suffix hheader
      refine Ends.ite (fun _ => ends_invalid) (fun _ => ?_)
      split
      · exact ends_invalid
      · next behind hbehind =>
          have hbehind := (restOfLine_suffix hbehind).trans hnext
          refine .ok ((lines_suffix _ _ _ _ _).trans ?_)
          cases head.indentation with
          | none => exact (leading_suffix 0 behind.position behind.chars).trans hbehind
          | some d => exact (breaks_suffix _ behind.position behind.chars).trans hbehind

end Block

/-! ## Quoted scalars -/

namespace Quoted

/-- Not inside an escape. -/
def State.Outside : State → Prop
  | .escape => False
  | .hex _ _ => False
  | _ => True

def Move.Ordinary : Move → Prop
  | .go _ next => next.Outside
  | .close _ => True
  | .fail f => f.Ordinary

theorem Move.Ordinary.prepend {m : Move} (h : m.Ordinary) (cs : List CodePoint) :
    (m.prepend cs).Ordinary := by
  cases m with
  | go added next => exact h
  | close added => exact h
  | fail f => exact h

theorem ordinary_breakMove (first : Option CodePoint) (more rest : List CodePoint) :
    (breakMove first more rest).Ordinary := by
  unfold breakMove
  split
  · exact Fault.ordinary_invalid
  · trivial

theorem ordinary_textMove (double : Bool) {c : CodePoint} (h : c ≠ '\\') (rest : List CodePoint) :
    (textMove double c rest).Ordinary := by
  unfold textMove
  split
  · split
    · trivial
    · trivial
  · split
    · next hescape =>
        simp only [Bool.and_eq_true, beq_iff_eq] at hescape
        exact absurd hescape.2 h
    · split
      · trivial
      · split
        · exact ordinary_breakMove _ _ _
        · trivial

/-- Only a backslash leads into an escape. -/
theorem ordinary_move (double : Bool) {state : State} (hstate : state.Outside) {c : CodePoint}
    (h : c ≠ '\\') (rest : List CodePoint) : (move double state c rest).Ordinary := by
  cases state with
  | text => exact ordinary_textMove double h rest
  | spaces run =>
      simp only [move]
      split
      · trivial
      · split
        · exact ordinary_breakMove _ _ _
        · exact (ordinary_textMove double h rest).prepend run
  | broken first more =>
      simp only [move]
      split
      · trivial
      · split
        · exact ordinary_breakMove _ _ _
        · exact (ordinary_textMove double h rest).prepend _
  | quote => trivial
  | escape => exact hstate.elim
  | hex remaining code => exact hstate.elim

theorem scans_read (double : Bool) {state : State} (hstate : state.Outside) (p : Position)
    {cs : List CodePoint} (h : OrdinaryText cs) : Scans cs (read double state p cs) := by
  induction cs generalizing state p with
  | nil => exact ends_invalid
  | cons c rest ih =>
      have hmove := ordinary_move double hstate (h c List.mem_cons_self).2 rest
      have hrest : OrdinaryText rest := h.of_suffix (List.suffix_cons c rest)
      unfold read
      split
      · next added next hgo =>
          rw [hgo] at hmove
          have hread := ih hmove (p.advance c) hrest
          split
          · next text behind hok =>
              exact .ok ((hread.of_ok hok).trans (List.suffix_cons c rest))
          · next f herror => exact .error (hread.of_error herror)
      · exact .ok (List.suffix_cons c rest)
      · next f hfail =>
          rw [hfail] at hmove
          exact .error hmove

end Quoted

/-! ## Plain scalars -/

namespace Plain

/-- The scalar ends somewhere further on, and not with a line end. -/
structure Result.Sound (r : Result) (cs : List CodePoint) : Prop where
  suffix : r.cursor.chars <:+ cs
  last : r.text.getLast? ≠ some (.char '\n')

namespace Result.Sound

theorem stop {cs : List CodePoint} {crossed : Bool} {c : Cursor} (h : c.chars <:+ cs) :
    Sound ⟨[], crossed, c⟩ cs :=
  ⟨h, nofun⟩

theorem skip {r : Result} {c : CodePoint} {rest : List CodePoint} (h : r.Sound rest) :
    r.Sound (c :: rest) :=
  ⟨h.suffix.trans (List.suffix_cons c rest), h.last⟩

theorem prepend {r : Result} {c : CodePoint} {rest : List CodePoint} (h : r.Sound rest)
    (hc : ¬ isBreak c = true) (text : List CodePoint) :
    (r.prepend (text ++ [c])).Sound (c :: rest) := by
  refine ⟨h.suffix.trans (List.suffix_cons c rest), ?_⟩
  have hne : c ≠ '\n' := by
    rintro rfl
    exact hc rfl
  have hlast := h.last
  change (text ++ [c] ++ r.text).getLast? ≠ some (.char '\n')
  rw [List.getLast?_append]
  cases hr : r.text.getLast? with
  | none => simpa using hne
  | some d =>
      rw [hr] at hlast
      exact hlast

end Result.Sound

theorem sound_read (inFlow : Bool) (indent : Int) (gap : Gap) (p : Position) (cs : List CodePoint) :
    (read inFlow indent gap p cs).Sound cs := by
  -- in each kind of gap a character is skipped, ends the scalar or is kept; kept ones are no breaks
  fun_induction read inFlow indent gap p cs with
  | case1 => exact .stop List.suffix_rfl
  | case2 | case4 | case7 | case9 | case12 | case14 => exact .skip ‹_›
  | case3 | case8 | case13 => exact .stop (List.suffix_cons _ _)
  | case5 | case10 | case15 => exact .stop List.suffix_rfl
  | case6 => exact Result.Sound.prepend ‹_› ‹_› []
  | case11 | case16 => exact Result.Sound.prepend ‹_› ‹_› _

end Plain

end NameCatalog.Yaml
