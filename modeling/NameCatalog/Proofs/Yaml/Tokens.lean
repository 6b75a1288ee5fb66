import NameCatalog.Proofs.Yaml.Scanning
import NameCatalog.Yaml.Lexer

/-!
# The tokens of ordinary text

The lexer stays in the text it was given, so ordinary text has no tag tokens, and a fault at which
the lexer stops is an ordinary one. No plain scalar ends with a line end.
-/

namespace NameCatalog.Yaml

/-- A token that ordinary text can have. -/
def Token.Ordinary : Token → Prop
  | .tag _ _ => False
  | .scalar text plain => plain = true → text.toList.getLast? ≠ some (.char '\n')
  | .fault f => f.Ordinary
  | _ => True

namespace Lexer

structure Ordinary (l : Lexer) : Prop where
  text : OrdinaryText l.cursor.chars
  tokens : ∀ t ∈ l.tokens, t.Ordinary

/-- A step of the lexer that stays in ordinary text. -/
abbrev Steps : Except Fault Lexer → Prop := Ends Fault.Ordinary Ordinary

variable {l : Lexer}

namespace Ordinary

theorem emit (h : l.Ordinary) {t : Token} (ht : t.Ordinary) : (l.emit t).Ordinary :=
  ⟨h.text, List.forall_mem_cons.mpr ⟨ht, h.tokens⟩⟩

theorem moveTo (h : l.Ordinary) {c : Cursor} (hc : c.chars <:+ l.cursor.chars) :
    (l.moveTo c).Ordinary :=
  ⟨h.text.of_suffix hc, h.tokens⟩

theorem skip (h : l.Ordinary) (n : Nat) : (l.skip n).Ordinary :=
  h.moveTo (l.cursor.drop_suffix n)

theorem allowKey (h : l.Ordinary) (allowed : Bool) : (l.allowKey allowed).Ordinary :=
  ⟨h.text, h.tokens⟩

end Ordinary

theorem skipGaps_suffix (inComment : Bool) (p : Position) (cs : List CodePoint) :
    (skipGaps inComment p cs).2.chars <:+ cs := by
  fun_induction skipGaps inComment p cs with
  | case1 => exact List.suffix_rfl
  | case2 inComment p c rest _ ih => exact ih.trans (List.suffix_cons c rest)
  | case3 inComment p c rest _ _ ih => exact ih.trans (List.suffix_cons c rest)
  | case4 inComment p c rest _ _ _ ih => exact ih.trans (List.suffix_cons c rest)
  | case5 => exact List.suffix_rfl

theorem Ordinary.toNextToken (h : l.Ordinary) : l.toNextToken.Ordinary :=
  ⟨h.text.of_suffix (skipGaps_suffix _ _ _), h.tokens⟩

/-! ## Keys and blocks -/

theorem ends_fresh (p : Position) (key : Option KeyStart) :
    Ends Fault.Ordinary (fun _ => True) (fresh p key) := by
  cases key with
  | none => exact .ok trivial
  | some k =>
      refine Ends.ite (fun _ => .ok trivial) (fun _ => ?_)
      exact Ends.ite (fun _ => ends_invalid) (fun _ => .ok trivial)

theorem steps_dropStaleKeys (h : l.Ordinary) : Steps l.dropStaleKeys := by
  refine (Ends.mapM fun key _ => ends_fresh l.cursor.position key).bind fun outer _ => ?_
  exact (ends_fresh _ _).bind fun key _ => .ok ⟨h.text, h.tokens⟩

theorem steps_dropKey (h : l.Ordinary) : Steps l.dropKey := by
  unfold dropKey
  split
  · exact Ends.ite (fun _ => ends_invalid) (fun _ => .ok ⟨h.text, h.tokens⟩)
  · exact .ok h

theorem steps_noteKey (h : l.Ordinary) : Steps l.noteKey := by
  refine Ends.ite (fun _ => ?_) (fun _ => .ok h)
  exact (steps_dropKey h).bind fun _ hl => .ok ⟨hl.text, hl.tokens⟩

theorem Ordinary.closeBlocks (h : l.Ordinary) (column : Int) (outers : List Int) :
    (closeBlocks column l outers).Ordinary := by
  induction outers generalizing l with
  | nil => exact h
  | cons outer rest ih =>
      unfold Lexer.closeBlocks
      split
      · have hclosed : (l.emit .blockEnd).Ordinary := h.emit trivial
        exact ih ⟨hclosed.text, hclosed.tokens⟩
      · exact h

theorem Ordinary.unwind (h : l.Ordinary) (column : Int) : (l.unwind column).Ordinary := by
  unfold Lexer.unwind
  split
  · exact h
  · exact h.closeBlocks column l.indents

theorem Ordinary.openBlock (h : l.Ordinary) (column : Int) : (l.openBlock column).2.Ordinary := by
  unfold Lexer.openBlock
  split
  · exact ⟨h.text, h.tokens⟩
  · exact h

theorem Ordinary.openBlockWith (h : l.Ordinary) {t : Token} (ht : t.Ordinary) :
    (l.openBlockWith t).Ordinary := by
  have hopen := h.openBlock l.column
  simp only [Lexer.openBlockWith]
  split
  · exact hopen.emit ht
  · exact hopen

theorem Ordinary.insertAt (h : l.Ordinary) (count : Nat) {ts : List Token}
    (hts : ∀ t ∈ ts, t.Ordinary) : (l.insertAt count ts).Ordinary := by
  refine ⟨h.text, ?_⟩
  intro t ht
  simp only [Lexer.insertAt, List.splitAt_eq, List.mem_append, List.mem_reverse] at ht
  rcases ht with (ht | ht) | ht
  · exact h.tokens t (List.mem_of_mem_take ht)
  · exact hts t ht
  · exact h.tokens t (List.mem_of_mem_drop ht)

/-! ## Reading a token -/

theorem steps_readEnd (h : l.Ordinary) : Steps l.readEnd :=
  (steps_dropKey (h.unwind (-1))).bind fun _ hl => .ok ((hl.allowKey false).emit trivial)

theorem steps_readDirective (h : l.Ordinary) : Steps l.readDirective := by
  refine (steps_dropKey (h.unwind (-1))).bind fun l hl => ?_
  have hdrop := l.cursor.drop_suffix 1
  refine (Property.scans_directive (hl.text.of_suffix hdrop)).bind ?_
  rintro ⟨d, next⟩ hnext
  exact .ok (((hl.allowKey false).moveTo (hnext.trans hdrop)).emit trivial)

theorem steps_readDocumentMark (h : l.Ordinary) {t : Token} (ht : t.Ordinary) :
    Steps (l.readDocumentMark t) :=
  (steps_dropKey (h.unwind (-1))).bind fun _ hl => .ok (((hl.allowKey false).skip 3).emit ht)

theorem steps_readFlowStart (h : l.Ordinary) {t : Token} (ht : t.Ordinary) :
    Steps (l.readFlowStart t) := by
  refine (steps_noteKey h).bind fun l hl => ?_
  have hopen : Ordinary { l with keyStart := none, outerKeys := l.keyStart :: l.outerKeys } :=
    ⟨hl.text, hl.tokens⟩
  exact .ok (((hopen.allowKey true).skip 1).emit ht)

theorem steps_readFlowEnd (h : l.Ordinary) {t : Token} (ht : t.Ordinary) :
    Steps (l.readFlowEnd t) := by
  refine (steps_dropKey h).bind fun l hl => ?_
  cases l.outerKeys with
  | nil => exact ends_invalid
  | cons key outer =>
      have hclosed : Ordinary { l with keyStart := key, outerKeys := outer } := ⟨hl.text, hl.tokens⟩
      exact .ok (((hclosed.allowKey false).skip 1).emit ht)

theorem steps_readFlowEntry (h : l.Ordinary) : Steps l.readFlowEntry :=
  (steps_dropKey (h.allowKey true)).bind fun _ hl => .ok ((hl.skip 1).emit trivial)

theorem steps_readBlockEntry (h : l.Ordinary) : Steps l.readBlockEntry := by
  refine Ends.ite (fun _ => ends_invalid) (fun _ => ?_)
  have hopen : Ordinary (if l.inFlow then l else l.openBlockWith .blockSequenceStart) := by
    split
    · exact h
    · exact h.openBlockWith trivial
  exact (steps_dropKey (hopen.allowKey true)).bind fun _ hl => .ok ((hl.skip 1).emit trivial)

/-- A block mapping is opened before a marked key or value. -/
theorem Ordinary.openMapping (h : l.Ordinary) :
    Ordinary (if l.inFlow then l else l.openBlockWith .blockMappingStart) := by
  split
  · exact h
  · exact h.openBlockWith trivial

theorem steps_readKey (h : l.Ordinary) : Steps l.readKey := by
  refine Ends.ite (fun _ => ends_invalid) (fun _ => ?_)
  exact (steps_dropKey (h.openMapping.allowKey _)).bind fun _ hl => .ok ((hl.skip 1).emit trivial)

theorem Ordinary.readValueOf (h : l.Ordinary) (k : KeyStart) : (l.readValueOf k).Ordinary := by
  have hkey : Ordinary { l with keyStart := none } := ⟨h.text, h.tokens⟩
  have hstart : ∀ t ∈ [Token.blockMappingStart, .key], t.Ordinary := by
    simp [Token.Ordinary]
  have hmark : ∀ t ∈ [Token.key], t.Ordinary := by
    simp [Token.Ordinary]
  have hopen : Ordinary
      (if inFlow { l with keyStart := none } then (false, { l with keyStart := none })
        else Lexer.openBlock { l with keyStart := none } k.position.column).2 := by
    split
    · exact hkey
    · exact hkey.openBlock _
  refine (((hopen.insertAt k.count ?_).allowKey false).skip 1).emit trivial
  split
  · exact hstart
  · exact hmark

theorem steps_readValue (h : l.Ordinary) : Steps l.readValue := by
  unfold readValue
  split
  · next k _ => exact .ok (h.readValueOf k)
  · refine Ends.ite (fun _ => ends_invalid) (fun _ => ?_)
    exact .ok (((h.openMapping.allowKey _).skip 1).emit trivial)

theorem steps_readNamed (h : l.Ordinary) {make : Text → Token}
    (hmake : ∀ word, (make word).Ordinary) : Steps (l.readNamed make) := by
  refine (steps_noteKey h).bind fun l hl => ?_
  refine (Property.scans_name (l.cursor.drop 1)).bind ?_
  rintro ⟨word, next⟩ hnext
  exact .ok (((hl.allowKey false).moveTo (hnext.trans (l.cursor.drop_suffix 1))).emit (hmake word))

theorem steps_readBlockScalar (h : l.Ordinary) (folding : Bool) :
    Steps (l.readBlockScalar folding) := by
  refine (steps_dropKey h).bind fun l hl => ?_
  refine (Block.scans_read folding l.indent (l.cursor.drop 1)).bind ?_
  rintro ⟨text, next⟩ hnext
  exact .ok (((hl.allowKey true).moveTo (hnext.trans (l.cursor.drop_suffix 1))).emit nofun)

theorem steps_readQuoted (h : l.Ordinary) (double : Bool) : Steps (l.readQuoted double) := by
  refine (steps_noteKey h).bind fun l hl => ?_
  have hdrop := l.cursor.drop_suffix 1
  have hstate : Quoted.State.text.Outside := trivial
  refine (Quoted.scans_read double hstate _ (hl.text.of_suffix hdrop)).bind ?_
  rintro ⟨text, next⟩ hnext
  exact .ok (((hl.allowKey false).moveTo (hnext.trans hdrop)).emit nofun)

theorem steps_readPlain (h : l.Ordinary) : Steps l.readPlain := by
  refine (steps_noteKey h).bind fun l hl => ?_
  have hread := Plain.sound_read l.inFlow (l.indent + 1) .none l.cursor.position l.cursor.chars
  generalize Plain.read l.inFlow (l.indent + 1) .none l.cursor.position l.cursor.chars = r at hread
  have hscalar : Token.Ordinary (.scalar (Text.ofList r.text) true) := by
    intro _
    rw [Text.toList_ofList]
    exact hread.last
  exact .ok (((hl.allowKey r.crossed).moveTo hread.suffix).emit hscalar)

theorem steps_readToken (h : l.Ordinary) {c : CodePoint} (hc : c ≠ '!') (rest : List CodePoint) :
    Steps (l.readToken c rest) := by
  refine Ends.ite (fun _ => steps_readDirective h) (fun _ => ?_)
  refine Ends.ite (fun _ => steps_readDocumentMark h trivial) (fun _ => ?_)
  refine Ends.ite (fun _ => steps_readDocumentMark h trivial) (fun _ => ?_)
  refine Ends.ite (fun _ => steps_readFlowStart h trivial) (fun _ => ?_)
  refine Ends.ite (fun _ => steps_readFlowStart h trivial) (fun _ => ?_)
  refine Ends.ite (fun _ => steps_readFlowEnd h trivial) (fun _ => ?_)
  refine Ends.ite (fun _ => steps_readFlowEnd h trivial) (fun _ => ?_)
  refine Ends.ite (fun _ => steps_readFlowEntry h) (fun _ => ?_)
  refine Ends.ite (fun _ => steps_readBlockEntry h) (fun _ => ?_)
  refine Ends.ite (fun _ => steps_readKey h) (fun _ => ?_)
  refine Ends.ite (fun _ => steps_readValue h) (fun _ => ?_)
  refine Ends.ite (fun _ => steps_readNamed h fun _ => trivial) (fun _ => ?_)
  refine Ends.ite (fun _ => steps_readNamed h fun _ => trivial) (fun _ => ?_)
  -- the one branch that reads a tag is not taken
  refine Ends.ite (fun htag => absurd htag hc) (fun _ => ?_)
  refine Ends.ite (fun _ => steps_readBlockScalar h false) (fun _ => ?_)
  refine Ends.ite (fun _ => steps_readBlockScalar h true) (fun _ => ?_)
  refine Ends.ite (fun _ => steps_readQuoted h false) (fun _ => ?_)
  refine Ends.ite (fun _ => steps_readQuoted h true) (fun _ => ?_)
  exact Ends.ite (fun _ => steps_readPlain h) (fun _ => ends_invalid)

theorem ends_next (h : l.Ordinary) : Ends Fault.Ordinary (fun p => p.1.Ordinary) l.next := by
  refine (steps_dropStaleKeys h.toNextToken).bind fun l hl => ?_
  have hunwound := hl.unwind l.column
  simp only
  split
  · exact (steps_readEnd hunwound).bind fun _ hend => .ok hend
  · next c rest hchars =>
      have hc : c ≠ '!' := (hunwound.text c (by rw [hchars]; exact List.mem_cons_self)).1
      exact (steps_readToken hunwound hc rest).bind fun _ htoken => .ok htoken

/-! ## Reading all tokens -/

theorem Ordinary.stop (h : l.Ordinary) {f : Fault} (hf : f.Ordinary) :
    ∀ t ∈ l.stop f, t.Ordinary := by
  intro t ht
  rcases List.mem_cons.mp (List.mem_reverse.mp ht) with rfl | ht
  · exact hf
  · exact h.tokens t (List.mem_of_mem_drop ht)

theorem ordinary_run (h : l.Ordinary) (fuel : Nat) : ∀ t ∈ run fuel l, t.Ordinary := by
  induction fuel generalizing l with
  | zero => exact h.stop Fault.ordinary_invalid
  | succ fuel ih =>
      have hnext := ends_next h
      unfold run
      split
      · next f hf => exact h.stop (hnext.of_error hf)
      · next l' hl => exact ih (hnext.of_ok hl)
      · next l' hl =>
          intro t ht
          exact (hnext.of_ok hl).tokens t (List.mem_reverse.mp ht)

theorem ordinary_start {cs : List CodePoint} (h : OrdinaryText cs) : (start cs).Ordinary := by
  refine ⟨?_, List.forall_mem_nil _⟩
  unfold start
  split
  · exact h.of_suffix (Cursor.drop_suffix _ _)
  · exact h

end Lexer

theorem Token.ordinary_ofText {cs : List CodePoint} (h : OrdinaryText cs) :
    ∀ t ∈ Token.ofText cs, t.Ordinary :=
  Lexer.ordinary_run (Lexer.ordinary_start h) _

end NameCatalog.Yaml
