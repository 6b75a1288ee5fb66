import Mathlib.Data.List.Forall2
import NameCatalog.Log.Step

/-!
# Setting the log up

The first attempt to set the log up is the only one that does anything. It gives the log one handler
at most, so that no message is written more than once. An attempt that fails settles the log just as
one that succeeds does: what comes after it finds the log as the failure has left it.
-/

namespace NameCatalog.LogState

/-! ## What a level means -/

theorem upperCase_word (level : Severity) : Text.upperCase level.word = level.word := by
  cases level <;> rfl

theorem meaningOf_text {given : Text} {level : Severity}
    (h : Text.upperCase given = level.word) :
    meaningOf (.text given) = .ok (.threshold level.rank) := by
  simp only [meaningOf, h, levelName?, Severity.ofWord?_word]

/-- The names that are known, but are no levels. -/
theorem levelName?_eq_other {name : Text} {f : LevelFault}
    (h : levelName? name = some (.other f)) : name = "BASIC_FORMAT" ∨ name = "_STYLES" := by
  unfold levelName? at h
  split at h
  · cases h
  · obtain ⟨before, after, hnames, -⟩ := List.lookup_eq_some_iff.mp h
    have hmem : (name, LevelName.other f) ∈ furtherNames := by
      rw [hnames]
      exact List.mem_append_right before List.mem_cons_self
    simp only [furtherNames, List.mem_cons, Prod.mk.injEq, reduceCtorEq, and_false, false_or,
      List.not_mem_nil, or_false] at hmem
    exact hmem.imp And.left And.left

/-- A name that is known, but is no level. -/
def NamesNoLevel (level : Value) : Prop :=
  ∃ given, level = .text given ∧
    (Text.upperCase given = "BASIC_FORMAT" ∨ Text.upperCase given = "_STYLES")

theorem namesNoLevel_of_meaningOf {level : Value} {f : LevelFault}
    (h : meaningOf level = .ok (.other f)) : NamesNoLevel level := by
  cases level with
  | text given =>
      simp only [meaningOf] at h
      split at h
      · next meaning hname =>
          cases h
          exact ⟨given, rfl, levelName?_eq_other hname⟩
      · cases h
  | _ => cases h

/-! ## One attempt -/

/-- All that an attempt can do. -/
inductive Attempt (s : LogState) (level : Value) : LogState × Option LevelFault → Prop
  | again (h : s.configured = true) : Attempt s level (s, none)
  | refused {f : LevelFault} (h : s.configured = false) (hmeaning : meaningOf level = .error f) :
      Attempt s level (⟨true, s.threshold, s.handlers⟩, some f)
  | needless {meaning : LevelName} (h : s.configured = false) (hhandlers : s.handlers ≠ 0)
      (hmeaning : meaningOf level = .ok meaning) :
      Attempt s level (⟨true, s.threshold, s.handlers⟩, none)
  | done {n : Nat} (h : s.configured = false) (hhandlers : s.handlers = 0)
      (hmeaning : meaningOf level = .ok (.threshold n)) : Attempt s level (⟨true, n, 1⟩, none)
  | halfway {f : LevelFault} (h : s.configured = false) (hhandlers : s.handlers = 0)
      (hmeaning : meaningOf level = .ok (.other f)) :
      Attempt s level (⟨true, s.threshold, 1⟩, some f)

theorem attempt_setup (s : LogState) (level : Value) : Attempt s level (s.setup level) := by
  cases h : s.configured with
  | true =>
      rw [setup_of_configured h]
      exact .again h
  | false =>
      simp only [setup, h, Bool.false_eq_true, if_false]
      cases hmeaning : meaningOf level with
      | error f => exact .refused h hmeaning
      | ok meaning =>
          by_cases hhandlers : s.handlers = 0
          · simp only [install, hhandlers, ne_eq, not_true_eq_false, if_false]
            cases meaning with
            | threshold n => exact .done h hhandlers hmeaning
            | other f => exact .halfway h hhandlers hmeaning
          · simp only [install, hhandlers, ne_eq, not_false_eq_true, if_true]
            exact .needless h hhandlers hmeaning

theorem configured_setup (s : LogState) (level : Value) :
    (s.setup level).1.configured = true := by
  have h := attempt_setup s level
  generalize s.setup level = r at h
  cases h with
  | again h => exact h
  | refused h _ => rfl
  | needless h _ _ => rfl
  | done h _ _ => rfl
  | halfway h _ _ => rfl

theorem handlers_setup {s : LogState} (h : s.handlers ≤ 1) (level : Value) :
    (s.setup level).1.handlers ≤ 1 := by
  have hattempt := attempt_setup s level
  generalize s.setup level = r at hattempt
  cases hattempt with
  | again _ => exact h
  | refused _ _ => exact h
  | needless _ _ _ => exact h
  | done _ _ _ => exact Nat.le_refl 1
  | halfway _ _ _ => exact Nat.le_refl 1

/-- The word of a severity is always taken. -/
theorem setup_word (log : LogState) (level : Severity) :
    (log.setup (.text level.word)).2 = none := by
  have hmeaning := meaningOf_text (upperCase_word level)
  have hattempt := attempt_setup log (.text level.word)
  generalize log.setup (.text level.word) = r at hattempt
  cases hattempt with
  | again _ => rfl
  | refused _ h => rw [hmeaning] at h; cases h
  | needless _ _ _ => rfl
  | done _ _ _ => rfl
  | halfway _ _ h => rw [hmeaning] at h; cases h

theorem setup_initial {given : Text} {level : Severity}
    (h : Text.upperCase given = level.word) :
    initial.setup (.text given) = (⟨true, level.rank, 1⟩, none) := by
  simp only [setup, initial, meaningOf_text h]
  rfl

/-! ## Steps in a row -/

/-- What a log answers on which an attempt was made already. -/
def settled (s : LogState) : Step → Answer
  | .setUp _ => ⟨s, none, []⟩
  | .write m => ⟨s, none, s.write m⟩

theorem take_of_configured {s : LogState} (h : s.configured = true) (x : Step) :
    s.take x = s.settled x := by
  cases x with
  | setUp level => rw [take, setup_of_configured h, settled]
  | write m => rfl

theorem state_settled (s : LogState) (x : Step) : (s.settled x).state = s := by
  cases x with
  | setUp level => rfl
  | write m => rfl

theorem answers_of_configured {s : LogState} (h : s.configured = true) (xs : List Step) :
    s.answers xs = xs.map s.settled := by
  induction xs with
  | nil => rfl
  | cons x xs ih => rw [answers_cons, take_of_configured h, state_settled, ih, List.map_cons]

theorem answers_writes_append (s : LogState) (ms : List Message) (xs : List Step) :
    s.answers (ms.map .write ++ xs) =
      ms.map (fun m => ⟨s, none, s.write m⟩) ++ s.answers xs := by
  induction ms with
  | nil => rfl
  | cons m ms ih => exact congrArg (⟨s, none, s.write m⟩ :: ·) ih

/-- The lines that a step may write: none, or one with its message. -/
def Step.Writes : Step → List Line → Prop
  | .setUp _, lines => lines = []
  | .write m, lines => lines = [] ∨ lines = [.bare m.text] ∨ lines = [.stamped m]

theorem writes_write {s : LogState} (h : s.handlers ≤ 1) (m : Message) :
    (Step.write m).Writes (s.write m) := by
  unfold write
  split
  · exact .inl rfl
  · split
    · split
      · exact .inl rfl
      · exact .inr (.inl rfl)
    · next hnone =>
        have hone : s.handlers = 1 := by omega
        rw [hone]
        exact .inr (.inr rfl)

theorem writes_take {s : LogState} (h : s.handlers ≤ 1) (x : Step) :
    x.Writes (s.take x).lines ∧ (s.take x).state.handlers ≤ 1 := by
  cases x with
  | setUp level => exact ⟨rfl, handlers_setup h _⟩
  | write m => exact ⟨writes_write h m, h⟩

theorem writes_answers {s : LogState} (h : s.handlers ≤ 1) (xs : List Step) :
    List.Forall₂ (fun x a => x.Writes a.lines ∧ a.state.handlers ≤ 1) xs (s.answers xs) := by
  induction xs generalizing s with
  | nil => exact .nil
  | cons x xs ih =>
      have hstep := writes_take h x
      exact .cons hstep (ih hstep.2)

theorem write_of_level (level : Severity) (m : Message) :
    (⟨true, level.rank, 1⟩ : LogState).write m =
      if level.rank ≤ m.severity.rank then [.stamped m] else [] := by
  by_cases h : level.rank ≤ m.severity.rank
  · simp [write, h]
  · simp [write, h, Nat.lt_of_not_le h]

/-! ## The first attempt settles the log -/

/-- At any time the log has one handler at most, and no step writes more than one line, which is
that of its message. The first set-up settles the log, whether it succeeds or fails: later set-ups
do nothing at all, and later messages find the log as the first left it. With the word of a
severity, in any letter case, the log has one handler from then on and writes a message, once, if
and only if it is as severe. -/
theorem first_setup_settles :
    (∀ steps : List Step,
      List.Forall₂ (fun x a => x.Writes a.lines ∧ a.state.handlers ≤ 1) steps
        (initial.answers steps)) ∧
    ∀ (messages : List Message) (level : Option Value) (later : List Step),
      let first := initial.setup (level.getD defaultLevel)
      initial.answers (messages.map .write ++ .setUp level :: later) =
          messages.map (fun m => ⟨initial, none, initial.write m⟩) ++
            ⟨first.1, first.2, []⟩ :: later.map first.1.settled ∧
        first.1.configured = true ∧
        ∀ (given : Text) (severity : Severity), level.getD defaultLevel = .text given →
          Text.upperCase given = severity.word →
          first = (⟨true, severity.rank, 1⟩, none) ∧
            ∀ m, first.1.write m =
              if severity.rank ≤ m.severity.rank then [.stamped m] else [] := by
  refine ⟨fun steps => writes_answers (s := initial) (Nat.zero_le 1) steps, ?_⟩
  intro messages level later first
  have hsettled : first.1.configured = true := configured_setup initial _
  refine ⟨?_, hsettled, ?_⟩
  · rw [answers_writes_append, ← answers_of_configured hsettled]
    rfl
  · intro given severity hlevel hword
    have hfirst : first = (⟨true, severity.rank, 1⟩, none) := by
      rw [show first = initial.setup (.text given) from congrArg initial.setup hlevel]
      exact setup_initial hword
    rw [hfirst]
    exact ⟨rfl, write_of_level severity⟩

/-- A level in small letters behind a message; the second level does not count. -/
theorem first_setup_settles_warning :
    let severe : Message := ⟨.error, "names", "lost"⟩
    let slight : Message := ⟨.info, "names", "found"⟩
    let warned : LogState := ⟨true, 30, 1⟩
    initial.answers
        [.write severe, .setUp (some (.text "warning")), .setUp (some (.text "DEBUG")),
          .write slight, .write severe] =
      [⟨initial, none, [.bare "lost"]⟩, ⟨warned, none, []⟩, ⟨warned, none, []⟩,
        ⟨warned, none, []⟩, ⟨warned, none, [.stamped severe]⟩] := by
  intro severe slight warned
  obtain ⟨htrace, -, hlevel⟩ := first_setup_settles.2 [severe] (some (.text "warning"))
    [.setUp (some (.text "DEBUG")), .write slight, .write severe]
  obtain ⟨hfirst, -⟩ := hlevel "warning" .warning rfl (by decide)
  rw [hfirst] at htrace
  exact htrace

/-! ## Attempts that fail -/

/-- A set-up can fail only where none was made before. It leaves the threshold as it was, and gives
the log a handler only when the name is known but names no level. It counts all the same: whatever
comes after it, no other set-up does anything, and messages find the log as the failure left it. -/
theorem failed_setup_settles {s t : LogState} {level : Value} {f : LevelFault}
    (h : s.setup level = (t, some f)) :
    s.configured = false ∧ t.configured = true ∧ t.threshold = s.threshold ∧
      (t.handlers = s.handlers ∨ NamesNoLevel level ∧ s.handlers = 0 ∧ t.handlers = 1) ∧
      ∀ steps, t.answers steps = steps.map t.settled := by
  have hattempt := attempt_setup s level
  rw [h] at hattempt
  cases hattempt with
  | refused hfirst _ => exact ⟨hfirst, rfl, rfl, .inl rfl, answers_of_configured rfl⟩
  | halfway hfirst hhandlers hmeaning =>
      have hnames := namesNoLevel_of_meaningOf hmeaning
      exact ⟨hfirst, rfl, rfl, .inr ⟨hnames, hhandlers, rfl⟩, answers_of_configured rfl⟩

/-- A name that is known but no level: the failure leaves a handler, at the old threshold. -/
theorem failed_setup_settles_basic_format :
    let fault : LevelFault := .notLevel bareTemplate
    let left : LogState := ⟨true, 30, 1⟩
    let slight : Message := ⟨.info, "names", "found"⟩
    initial.setup (.text "basic_format") = (left, some fault) ∧
      initial.configured = false ∧ NamesNoLevel (.text "basic_format") ∧
      left.answers [.setUp (some (.text "DEBUG")), .write slight] =
        [⟨left, none, []⟩, ⟨left, none, []⟩] := by
  intro fault left slight
  have hfails : initial.setup (.text "basic_format") = (left, some fault) := by
    decide +kernel
  obtain ⟨hfirst, -, -, hhandlers, hlater⟩ := failed_setup_settles hfails
  refine ⟨hfails, hfirst, ?_, hlater _⟩
  rcases hhandlers with h | ⟨hnames, -⟩
  · exact absurd h (by decide)
  · exact hnames

/-- A set-up with a level that is not known makes a later one useless that would have set the log
up. -/
theorem setup_lost_behind_failure :
    initial.answers [.setUp (some (.text "chatty")), .setUp (some (.text "INFO"))] =
        [⟨⟨true, 30, 0⟩, some (.unknown "CHATTY"), []⟩, ⟨⟨true, 30, 0⟩, none, []⟩] ∧
      initial.answers [.setUp (some (.text "INFO"))] = [⟨⟨true, 20, 1⟩, none, []⟩] := by
  decide +kernel

end NameCatalog.LogState
