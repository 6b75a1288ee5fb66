import Mathlib.Data.List.Forall2
import NameCatalog.CommandLine.Arguments
import NameCatalog.Proofs.Outcome

/-!
# Words of a command line

What single texts are to a scope, and what is read of a row of texts without a separator. A flag
that takes a value leaves it as it is, attached or not.
-/

namespace NameCatalog.CommandLine

namespace Word

theorem kindOf_argument {scope : Scope} {w : Text} (h : w.toList.head? ≠ some (.char '-')) :
    kindOf scope w = .ok .argument := by
  simp only [kindOf, if_pos h]

theorem flag?_eq_none {scope : Scope} {w : Text} (h : .char '=' ∈ w.toList) :
    scope.flag? w = none := by
  -- no flag is spelt with an equals sign
  have hspelt : ∀ s ∈ scope.spellings, .char '=' ∉ s.1.toList := by
    rcases scope with _ | (_ | _) <;> decide
  rw [Scope.flag?, List.lookup_eq_none_iff]
  intro s hs
  rw [bne_iff_ne]
  rintro rfl
  exact hspelt s hs h

theorem splitEquals_append {start : List CodePoint} (h : .char '=' ∉ start)
    (value : List CodePoint) :
    splitEquals (start ++ .char '=' :: value) = (start, some value) := by
  have hstart : ∀ c ∈ start, (c != '=') = true := by
    intro c hc
    simpa using ne_of_mem_of_not_mem hc h
  simp [splitEquals, List.dropWhile_append_of_pos hstart, List.takeWhile_append_of_pos hstart]

theorem splitEquals_of_not_mem {cs : List CodePoint} (h : .char '=' ∉ cs) :
    splitEquals cs = (cs, none) := by
  have hall : ∀ c ∈ cs, (c != '=') = true := by
    intro c hc
    simpa using ne_of_mem_of_not_mem hc h
  have hnil : cs.dropWhile (· != .char '=') = [] := by
    rw [← List.append_nil cs, List.dropWhile_append_of_pos hall, List.dropWhile_nil]
  rw [splitEquals, hnil]

theorem candidates_eq_nil {scope : Scope} {cs start : List CodePoint}
    {value : Option (List CodePoint)}
    (hlong : isLong cs = true) (hsplit : splitEquals cs = (start, value))
    (hnone : scope.spellings.filter (fun s => start.isPrefixOf s.1.toList) = []) :
    candidates scope cs = [] := by
  simp only [candidates, hlong, if_true, hsplit, hnone]
  rfl

/-- A word that is no flag and begins none is harmless, whatever it is taken for. -/
theorem exists_kindOf {scope : Scope} {w : Text} (hflag : scope.flag? w = none)
    (hstart : scope.flag? (Text.ofList (splitEquals w.toList).1) = none)
    (hnone : candidates scope w.toList = []) : ∃ k, kindOf scope w = .ok k := by
  unfold kindOf
  simp only [hflag, hstart, hnone]
  split
  · exact ⟨_, rfl⟩
  · split
    · exact ⟨_, rfl⟩
    · cases (splitEquals w.toList).2 with
      | none => exact ⟨_, rfl⟩
      | some value => exact ⟨_, rfl⟩

theorem toList_attached (start value : Text) :
    (start ++ "=" ++ value).toList = start.toList ++ .char '=' :: value.toList := by
  simp

/-- How a single text is read as a word. -/
structure Reads (scope : Scope) (text : Text) (w : Word) : Prop where
  ne_separator : text ≠ separatorText
  kind : kindOf scope text = .ok w.kind
  text : w.text = text

theorem Reads.argument (scope : Scope) {text : Text} (h : text.toList.head? ≠ some (.char '-')) :
    Reads scope text ⟨text, .argument⟩ := by
  refine ⟨?_, kindOf_argument h, rfl⟩
  rintro rfl
  exact h (by decide)

theorem reads_verbose : Reads .program "--verbose" ⟨"--verbose", .flag .verbose true none⟩ :=
  ⟨by decide, by decide, rfl⟩

theorem ofTexts_cons {scope : Scope} {text : Text} {w : Word} (h : Reads scope text w)
    (texts : List Text) : ofTexts scope (text :: texts) = (ofTexts scope texts).map (w :: ·) := by
  rw [ofTexts, if_neg h.ne_separator, h.kind]
  simp only [← h.text]
  cases ofTexts scope texts with
  | error m => rfl
  | ok words => rfl

/-- Without a separator among them, texts are read one by one. -/
theorem ofTexts_eq_ok {scope : Scope} {texts : List Text} {words : List Word}
    (h : List.Forall₂ (Reads scope) texts words) : ofTexts scope texts = .ok words := by
  induction h with
  | nil => rfl
  | cons hread _ ih =>
      rw [ofTexts_cons hread, ih]
      rfl

theorem map_text_eq {scope : Scope} {texts : List Text} {words : List Word}
    (h : List.Forall₂ (Reads scope) texts words) : words.map text = texts := by
  induction h with
  | nil => rfl
  | cons hread _ ih => rw [List.map_cons, hread.text, ih]

end Word

theorem Cluster.ofAttached_value {f : Flag} {value : Text} (htakes : f.takesValue = true)
    (h : value ≠ Word.separatorText) (scope : Scope) (next : Option Text) (isLong : Bool) :
    ofAttached scope next isLong f value.toList = .ok ⟨[(f, .text value)], false⟩ := by
  cases hvalue : value.toList with
  | nil =>
      have hempty : value = "" := Text.toList_inj.mp hvalue
      rw [ofAttached, if_pos htakes, hempty]
  | cons c cs =>
      have hsame : Text.ofList (c :: cs) = value := by rw [← hvalue, Text.ofList_toList]
      simp only [ofAttached, htakes, if_true, hsame, valueOfText, if_neg h]

theorem Given.take_singleton (scope : Scope) {f : Flag} {v : Value} (hf : f ≠ .help)
    (hv : f.admits v = true) (g : Given) :
    g.take scope [(f, v)] = .ok { g with flags := g.flags ++ [(f, v)] } := by
  rw [take, if_neg hf, if_pos hv, take]

theorem argumentValue_eq {text : Text} (h : text ≠ Word.separatorText) (place : Place) :
    argumentValue place text = .text text := by
  rw [argumentValue, valueOfText, if_neg h, ite_self]

theorem readCommand_argument {scope : Scope} {g : Given} {text : Text}
    (hroom : g.arguments.length < scope.arguments.length) (h : text ≠ Word.separatorText)
    (place : Place) (rest : List Word) :
    readCommand scope g place false (⟨text, .argument⟩ :: rest) =
      readCommand scope (g.addArgument (.text text)) .behindArgument false rest := by
  simp only [readCommand, Bool.false_eq_true, if_false, if_pos hroom, argumentValue_eq h]

/-- A flag that stands alone takes its value from the next word. -/
theorem readCommand_flag_value (scope : Scope) {f : Flag} {value : Text}
    (htakes : f.takesValue = true) (hf : f ≠ .help) (hadmits : f.admits (.text value) = true)
    (g : Given) (place : Place) (spelling : Text) (isLong : Bool) (rest : List Word) :
    readCommand scope g place false
        (⟨spelling, .flag f isLong none⟩ :: ⟨value, .argument⟩ :: rest) =
      readCommand scope { g with flags := g.flags ++ [(f, .text value)] } .start false rest := by
  have hword : Cluster.ofWord scope (nextArgument (⟨value, .argument⟩ :: rest)) f isLong none =
      .ok ⟨[(f, .text value)], true⟩ := by
    rw [Cluster.ofWord, nextArgument, Cluster.ofFlag, if_pos htakes]
  simp [readCommand, hword, g.take_singleton scope hf hadmits]

end NameCatalog.CommandLine
