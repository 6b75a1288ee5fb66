import NameCatalog.Json.Reader

/-!
# Solid characters of JSON lists

A character is solid if it stays in the paths of a text, however the text is cut. What a JSON string
is read as has no more solid characters than its written form, since each escape has some of its
own; the brackets of a list are solid, so that a written list has more of them than its items.
-/

namespace NameCatalog

/-! ## Solid characters -/

/-- Whether a character stays, however a text is cut into paths. -/
def isSolid (c : CodePoint) : Bool := !(c == '/' || c == '.' || c == ',' || Text.isBlank c)

def solidCount (cs : List CodePoint) : Nat := cs.countP isSolid

@[simp] theorem solidCount_nil : solidCount [] = 0 := rfl

theorem solidCount_append (cs ds : List CodePoint) :
    solidCount (cs ++ ds) = solidCount cs + solidCount ds :=
  List.countP_append

theorem solidCount_cons (c : CodePoint) (cs : List CodePoint) :
    solidCount (c :: cs) = solidCount cs + if isSolid c then 1 else 0 :=
  List.countP_cons

theorem solidCount_singleton_le (c : CodePoint) : solidCount [c] ≤ 1 :=
  List.countP_le_length

theorem solidCount_dropWhile_le (p : CodePoint → Bool) (cs : List CodePoint) :
    solidCount (cs.dropWhile p) ≤ solidCount cs :=
  (List.dropWhile_sublist p).countP_le

/-- How many solid characters are in the texts together. -/
def solidCountOf (texts : List Text) : Nat := solidCount (texts.flatMap Text.toList)

theorem solidCountOf_cons (s : Text) (texts : List Text) :
    solidCountOf (s :: texts) = solidCount s.toList + solidCountOf texts := by
  rw [solidCountOf, List.flatMap_cons, solidCount_append, solidCountOf]

/-! ## JSON lists -/

namespace Json

/-- How many characters the reader of a string may still add for those that it has taken. -/
def TextState.owed : TextState → Nat
  | .text => 0
  | .afterHigh _ => 1
  | .escape high => (loneHigh high).length + 1
  | .code high _ _ => (loneHigh high).length + 1

theorem owed_codeText (high : Option Nat) (n : Nat) :
    (codeText high n).1.length + (codeText high n).2.owed ≤ (loneHigh high).length + 1 := by
  unfold codeText
  cases high with
  | none =>
      dsimp only
      split <;> simp [TextState.owed, loneHigh]
  | some h =>
      dsimp only
      split
      · simp [TextState.owed, loneHigh]
      · split <;> simp [TextState.owed, loneHigh]

theorem solidCount_le_length (cs : List CodePoint) : solidCount cs ≤ cs.length :=
  List.countP_le_length

theorem solid_textStep {state next : TextState} {c : CodePoint} {added : List CodePoint}
    (h : textStep state c = some (added, some next)) :
    solidCount added + next.owed ≤ state.owed + solidCount [c] := by
  have hescape : solidCount ['\\'] = 1 := by
    decide
  have hadded := solidCount_le_length added
  cases state with
  | text =>
      simp only [textStep] at h
      split at h
      · cases h
      · split at h
        · next hc =>
            cases h
            rw [hc, hescape]
            simp [TextState.owed, loneHigh]
        · split at h
          · cases h
          · cases h
            simp [TextState.owed]
  | afterHigh high =>
      simp only [textStep] at h
      split at h
      · cases h
      · split at h
        · next hc =>
            cases h
            rw [hc, hescape]
            simp [TextState.owed, loneHigh]
        · split at h
          · cases h
          · cases h
            have hlone := solidCount_singleton_le (.ofNat high)
            have hboth := solidCount_append [.ofNat high] [c]
            simp only [List.singleton_append] at hboth
            simp only [TextState.owed]
            omega
  | escape high =>
      simp only [textStep] at h
      split at h
      · cases h
        simp [TextState.owed]
      · obtain ⟨e, -, he⟩ := Option.map_eq_some_iff.mp h
        cases he
        simp only [List.length_append, List.length_singleton] at hadded
        simp only [TextState.owed]
        omega
  | code high remaining value =>
      obtain ⟨d, -, hd⟩ := Option.map_eq_some_iff.mp h
      split at hd
      · cases hd
        simp [TextState.owed]
      · have howed := owed_codeText high (value * 16 + d)
        have hparts : (codeText high (value * 16 + d)).1 = added ∧
            (codeText high (value * 16 + d)).2 = next := by
          simpa using hd
        rw [hparts.1, hparts.2] at howed
        change _ ≤ (loneHigh high).length + 1 + _
        omega

/-- A string ends with its closing quote. -/
theorem solid_textStep_end {state : TextState} {c : CodePoint} {added : List CodePoint}
    (h : textStep state c = some (added, none)) :
    solidCount added + 1 ≤ state.owed + solidCount [c] := by
  have hquote : solidCount ['"'] = 1 := by
    decide
  cases state with
  | text =>
      simp only [textStep] at h
      split at h
      · next hc =>
          cases h
          rw [hc, hquote]
          simp [TextState.owed]
      · split at h
        · cases h
        · split at h <;> cases h
  | afterHigh high =>
      simp only [textStep] at h
      split at h
      · next hc =>
          cases h
          have hlone := solidCount_singleton_le (.ofNat high)
          rw [hc, hquote]
          simp only [TextState.owed]
          omega
      · split at h
        · cases h
        · split at h <;> cases h
  | escape high =>
      simp only [textStep] at h
      split at h
      · cases h
      · obtain ⟨e, -, he⟩ := Option.map_eq_some_iff.mp h
        cases he
  | code high remaining value =>
      obtain ⟨d, -, hd⟩ := Option.map_eq_some_iff.mp h
      split at hd <;> cases hd

theorem solid_readText {state : TextState} {cs s rest : List CodePoint}
    (h : readText state cs = some (s, rest)) :
    solidCount s + solidCount rest + 1 ≤ state.owed + solidCount cs := by
  induction cs generalizing state s with
  | nil => cases h
  | cons c cs ih =>
      have hcs := solidCount_append [c] cs
      rw [List.singleton_append] at hcs
      rw [readText] at h
      split at h
      · cases h
      · next added hstep =>
          cases h
          have hend := solid_textStep_end hstep
          omega
      · next added next hstep =>
          obtain ⟨r, hr, hsum⟩ := Option.map_eq_some_iff.mp h
          cases hsum
          have hnext := solid_textStep hstep
          have hrest := ih hr
          rw [solidCount_append]
          omega

theorem solidCount_skipBlanks_le (cs : List CodePoint) :
    solidCount (skipBlanks cs) ≤ solidCount cs :=
  solidCount_dropWhile_le isBlank cs

theorem readWord_mem {cs rest : List CodePoint} {ws : List (Text × Json)} {v : Json}
    (h : readWord cs ws = some (v, rest)) : v ∈ ws.map Prod.snd := by
  induction ws with
  | nil => cases h
  | cons w ws ih =>
      rw [readWord] at h
      split at h
      · cases h
        exact List.mem_cons_self
      · exact List.mem_cons_of_mem _ (ih h)

def isTextOrArray : Json → Bool
  | text _ => true
  | array _ => true
  | _ => false

/-- Words and numbers are neither texts nor arrays. -/
theorem isTextOrArray_of_readNumber {cs rest : List CodePoint} {v : Json}
    (h : readNumber cs = some (v, rest)) : isTextOrArray v = false := by
  unfold readNumber at h
  dsimp only at h
  split at h
  · split at h
    · cases h
    · cases h
      rfl
  · obtain ⟨x, -, hx⟩ := Option.map_eq_some_iff.mp h
    cases hx
    rfl

/-- The ways in which texts and arrays are read. -/
theorem readValue_cases {fuel : Nat} {cs rest : List CodePoint} {v : Json}
    (h : readValue fuel cs = some (v, rest)) (hv : isTextOrArray v = true) :
    (∃ tail s, cs = .char '"' :: tail ∧ readText .text tail = some (s, rest) ∧
      v = text (Text.ofList s)) ∨
    (∃ tail, cs = .char '[' :: tail ∧ skipBlanks tail = .char ']' :: rest ∧ v = array []) ∨
    ∃ fuel tail items, cs = .char '[' :: tail ∧
      readItems fuel (skipBlanks tail) = some (items, rest) ∧
      v = array items := by
  cases fuel with
  | zero => simp [readValue] at h
  | succ fuel =>
      rw [readValue.eq_def] at h
      dsimp only at h
      split at h
      · next tail =>
          obtain ⟨r, hr, hsame⟩ := Option.map_eq_some_iff.mp h
          cases hsame
          exact .inl ⟨tail, r.1, rfl, hr, rfl⟩
      · next tail =>
          split at h
          · next hclose =>
              cases h
              exact .inr (.inl ⟨tail, rfl, hclose, rfl⟩)
          · obtain ⟨r, hr, hsame⟩ := Option.map_eq_some_iff.mp h
            cases hsame
            exact .inr (.inr ⟨fuel, tail, r.1, rfl, hr, rfl⟩)
      · split at h
        · cases h
          cases hv
        · obtain ⟨r, -, hsame⟩ := Option.map_eq_some_iff.mp h
          cases hsame
          cases hv
      · split at h
        · next hword =>
            cases h
            have hwords : ∀ w ∈ words.map Prod.snd, isTextOrArray w = false := by
              decide
            rw [hwords v (readWord_mem hword)] at hv
            cases hv
        · rw [isTextOrArray_of_readNumber h] at hv
          cases hv

theorem solid_readValue_text {fuel : Nat} {cs rest : List CodePoint} {s : Text}
    (h : readValue fuel cs = some (text s, rest)) :
    solidCount s.toList + solidCount rest ≤ solidCount cs := by
  rcases readValue_cases h rfl with ⟨tail, chars, rfl, hread, hv⟩ | ⟨tail, -, -, hv⟩ |
    ⟨fuel, tail, items, -, -, hv⟩
  · cases hv
    have hquote : solidCount (.char '"' :: tail) = solidCount tail + 1 := solidCount_cons '"' tail
    have hsolid := solid_readText hread
    rw [Text.toList_ofList, hquote]
    simp only [TextState.owed] at hsolid
    omega
  · cases hv
  · cases hv

theorem readItems_cases {fuel : Nat} {cs rest : List CodePoint} {vs : List Json}
    (h : readItems (fuel + 1) cs = some (vs, rest)) :
    ∃ v tail, readValue fuel (skipBlanks cs) = some (v, tail) ∧
      ((skipBlanks tail = .char ']' :: rest ∧ vs = [v]) ∨
        ∃ more items, skipBlanks tail = .char ',' :: more ∧
          readItems fuel more = some (items, rest) ∧ vs = v :: items) := by
  rw [readItems] at h
  obtain ⟨⟨v, tail⟩, hvalue, h⟩ := Option.bind_eq_some_iff.mp h
  refine ⟨v, tail, hvalue, ?_⟩
  dsimp only at h
  split at h
  · next more hcomma =>
      obtain ⟨⟨items, last⟩, hitems, h⟩ := Option.bind_eq_some_iff.mp h
      cases h
      exact .inr ⟨more, items, hcomma, hitems, rfl⟩
  · next hclose =>
      cases h
      exact .inl ⟨hclose, rfl⟩
  · cases h

/-- Reading the items leaves out at least the closing bracket. -/
theorem solid_readItems {fuel : Nat} {cs rest : List CodePoint} {texts : List Text}
    (h : readItems fuel cs = some (texts.map text, rest)) :
    solidCountOf texts + solidCount rest + 1 ≤ solidCount cs := by
  induction fuel generalizing cs texts with
  | zero => simp [readItems] at h
  | succ fuel ih =>
      obtain ⟨v, tail, hvalue, hrest⟩ := readItems_cases h
      have hblanks := solidCount_skipBlanks_le cs
      have htail := solidCount_skipBlanks_le tail
      rcases hrest with ⟨hclose, hvs⟩ | ⟨more, items, hcomma, hitems, hvs⟩
      · obtain ⟨s, rfl, rfl⟩ := List.map_eq_singleton_iff.mp hvs
        have hvalue := solid_readValue_text hvalue
        have hbracket : solidCount (.char ']' :: rest) = solidCount rest + 1 :=
        solidCount_cons ']' rest
        have hsum : solidCountOf [s] = solidCount s.toList := solidCountOf_cons s []
        rw [hclose, hbracket] at htail
        omega
      · obtain ⟨s, others, rfl, rfl, rfl⟩ := List.map_eq_cons_iff.mp hvs
        have hvalue := solid_readValue_text hvalue
        have hcommaCount : solidCount (.char ',' :: more) = solidCount more :=
          solidCount_cons ',' more
        have hothers := ih hitems
        have hsum := solidCountOf_cons s others
        rw [hcomma, hcommaCount] at htail
        omega

theorem solid_read {t : Text} {texts : List Text} (h : read t = some (.texts texts)) :
    solidCountOf texts + 2 ≤ solidCount t.toList := by
  rw [read] at h
  obtain ⟨⟨v, rest⟩, hvalue, h⟩ := Option.bind_eq_some_iff.mp h
  dsimp only at h
  split at h
  · cases h
    have hblanks := solidCount_skipBlanks_le t.toList
    have hopen (tail : List CodePoint) : solidCount (.char '[' :: tail) = solidCount tail + 1 :=
      solidCount_cons '[' tail
    rcases readValue_cases hvalue rfl with ⟨tail, s, -, -, hv⟩ | ⟨tail, hcs, hclose, hv⟩ |
      ⟨fuel, tail, items, hcs, hitems, hv⟩
    · cases hv
    · have hnone : texts = [] := by
        simpa [Json.texts] using hv
      have htail := solidCount_skipBlanks_le tail
      have hbracket : solidCount (.char ']' :: rest) = solidCount rest + 1 :=
        solidCount_cons ']' rest
      have hsum : solidCountOf [] = 0 := rfl
      rw [hcs, hopen] at hblanks
      rw [hclose, hbracket] at htail
      rw [hnone]
      omega
    · cases hv
      have htail := solidCount_skipBlanks_le tail
      have hsolid := solid_readItems hitems
      rw [hcs, hopen] at hblanks
      omega
  · cases h

end Json

end NameCatalog
