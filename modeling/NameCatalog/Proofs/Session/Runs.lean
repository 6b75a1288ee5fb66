import NameCatalog.Proofs.Name.Rendering
import NameCatalog.Proofs.Session.Rebuilding
import NameCatalog.Session.Step

/-!
# Whole sessions

Steps come in any order, some of them fail, and the files may change between them. Whatever was
made before is left as it is, and every item that exists is sound. The rules for contents cannot be
sharpened, since each content that keeps them is reached.
-/

namespace NameCatalog.Session

/-- What a step finds outside the registers. -/
structure World where
  environment : List (Text × Text)
  host : Host

/-- The registers after steps that are each done in a world of its own. -/
def after (regs : Registers) : List (World × Step) → Registers
  | [] => regs
  | (w, step) :: rest => after (step.run w.environment w.host regs).1 rest

/-- An item exists in a register or within another item. -/
def Holds (regs : Registers) (i : Item) : Prop :=
  ∃ entry ∈ regs, i ∈ entry.2.parts

@[simp] theorem after_nil (regs : Registers) : after regs [] = regs := rfl

@[simp] theorem after_cons (regs : Registers) (w : World) (step : Step)
    (rest : List (World × Step)) :
    after regs ((w, step) :: rest) = after (step.run w.environment w.host regs).1 rest := rfl

theorem after_append (regs : Registers) (run rest : List (World × Step)) :
    after regs (run ++ rest) = after (after regs run) rest := by
  induction run generalizing regs with
  | nil => rfl
  | cons step run ih => exact ih _

/-! ## Single steps -/

section Step

variable {environment : List (Text × Text)} {host : Host} {regs : Registers}

/-- A step adds the item that its maker makes, or it changes nothing. -/
theorem Step.run_cases (step : Step) :
    (step.run environment host regs).1 = regs ∨
      ∃ register maker i, step = .make register maker ∧
        (maker.make environment host regs).result = .ok i ∧
        step.run environment host regs =
          ((register, i) :: regs, ⟨(maker.make environment host regs).notices, .ok (.item i)⟩) := by
  cases step with
  | ask question => exact .inl rfl
  | make register maker =>
      cases hmade : (maker.make environment host regs).result with
      | ok i => exact .inr ⟨register, maker, i, rfl, hmade, by simp only [Step.run, hmade]⟩
      | error f => exact .inl (by simp only [Step.run, hmade])

theorem Step.run_suffix (step : Step) : regs <:+ (step.run environment host regs).1 := by
  rcases step.run_cases with hsame | ⟨register, maker, i, -, -, hrun⟩
  · exact hsame.symm ▸ List.suffix_refl regs
  · rw [hrun]
    exact List.suffix_cons _ _

theorem Step.run_of_error {step : Step} {f : ItemFault}
    (h : (step.run environment host regs).2.result = .error f) :
    (step.run environment host regs).1 = regs := by
  rcases step.run_cases with hsame | ⟨register, maker, i, -, -, hrun⟩
  · exact hsame
  · rw [hrun] at h
    cases h

theorem loaded_result_eq_ok_iff {r : Logged (Except LoadFault Catalog)} {i : Item} :
    (loaded r).result = .ok i ↔ ∃ c, r.result = .ok c ∧ .catalog c = i := by
  simp only [loaded, Logged.map, map_eq_ok_iff, mapError_eq_ok_iff]

theorem thenLogged_result_eq_ok_iff {α : Type} {r : Except ItemFault α}
    {f : α → Logged (Except ItemFault Item)} {i : Item} :
    (thenLogged r f).result = .ok i ↔ ∃ a, r = .ok a ∧ (f a).result = .ok i := by
  cases r with
  | error e => simp [thenLogged, Logged.silent]
  | ok a => simp [thenLogged]

/-- No maker relies on its operands: each checks what it makes. -/
theorem Maker.make_labelled {maker : Maker} {i : Item}
    (h : (maker.make environment host regs).result = .ok i) : i.Labelled := by
  cases maker with
  -- Packages and identifiers are sound as such; only the source of a catalog needs a look.
  | package v =>
      simp only [Maker.make, Logged.silent, bind_eq_ok_iff, pure_eq_ok_iff] at h
      obtain ⟨_, -, p, -, rfl⟩ := h
      trivial
  | packageOfSegments v =>
      simp only [Maker.make, Logged.silent, bind_eq_ok_iff, pure_eq_ok_iff] at h
      obtain ⟨_, -, p, -, rfl⟩ := h
      trivial
  | identifier p v =>
      simp only [Maker.make, Logged.silent, bind_eq_ok_iff, pure_eq_ok_iff] at h
      obtain ⟨_, -, _, -, x, -, rfl⟩ := h
      trivial
  | identifierOfSegments p v =>
      simp only [Maker.make, Logged.silent, bind_eq_ok_iff, pure_eq_ok_iff] at h
      obtain ⟨_, -, _, -, x, -, rfl⟩ := h
      trivial
  | catalog rs source =>
      obtain ⟨items, -, hmade⟩ := thenLogged_result_eq_ok_iff.mp h
      exact Item.labelled_of_catalogOf hmade
  | merge rs =>
      obtain ⟨items, -, hmade⟩ := thenLogged_result_eq_ok_iff.mp h
      exact Item.labelled_of_merge hmade
  | item r index =>
      simp only [Maker.make, Logged.silent, bind_eq_ok_iff] at h
      obtain ⟨j, -, hmade⟩ := h
      exact Item.labelled_of_itemAt hmade
  | packageOf r =>
      simp only [Maker.make, Logged.silent, bind_eq_ok_iff] at h
      obtain ⟨j, -, hmade⟩ := h
      exact Item.labelled_of_packageOf hmade
  | builtin =>
      cases h
      trivial
  | load path =>
      obtain ⟨c, -, rfl⟩ := loaded_result_eq_ok_iff.mp h
      trivial
  | build v =>
      simp only [Maker.make] at h
      split at h
      · obtain ⟨c, -, rfl⟩ := loaded_result_eq_ok_iff.mp h
        trivial
      · cases h
  | replace r changes =>
      obtain ⟨j, -, hreplaced⟩ := thenLogged_result_eq_ok_iff.mp h
      obtain ⟨fields, -, hmade⟩ := thenLogged_result_eq_ok_iff.mp hreplaced
      exact Item.labelled_of_replace hmade

theorem Step.run_labelled {step : Step} (h : ∀ entry ∈ regs, entry.2.Labelled) :
    ∀ entry ∈ (step.run environment host regs).1, entry.2.Labelled := by
  rcases step.run_cases with hsame | ⟨register, maker, i, -, hmade, hrun⟩
  · rw [hsame]
    exact h
  · rw [hrun]
    intro entry hentry
    rcases List.mem_cons.mp hentry with rfl | hentry
    · exact Maker.make_labelled hmade
    · exact h entry hentry

end Step

theorem after_labelled {regs : Registers} (h : ∀ entry ∈ regs, entry.2.Labelled)
    (run : List (World × Step)) : ∀ entry ∈ after regs run, entry.2.Labelled := by
  induction run generalizing regs with
  | nil => exact h
  | cons step run ih => exact ih (Step.run_labelled h)

theorem sound_of_holds {run : List (World × Step)} {i : Item} (h : Holds (after [] run) i) :
    i.Sound := by
  obtain ⟨entry, hentry, hi⟩ := h
  have hlabelled := after_labelled (by simp) run entry hentry
  exact (hlabelled.of_mem_parts hi).sound

/-! ## Contents that are reached -/

@[simp] theorem Registers.get_cons_self (register : Text) (i : Item) (regs : Registers) :
    get ((register, i) :: regs) register = .ok i := by
  simp [get]

theorem Registers.get_cons_of_ne {register other : Text} (h : register ≠ other) {i : Item}
    {regs : Registers} : get ((other, i) :: regs) register = get regs register := by
  simp only [get, List.lookup_cons, beq_false_of_ne h]

/-- Steps that put an identifier into the register of its internal name. -/
def spell (x : Identifier) : List Step :=
  [.make "" (.packageOfSegments (.value (.tuple x.package.segments.toValues))),
    .make x.internalClassName
      (.identifierOfSegments (.register "") (.value (.tuple x.name.toValues)))]

theorem run_packageOfSegments (w : World) (regs : Registers) (register : Text) (p : Package) :
    ((Step.make register (.packageOfSegments (.value (.tuple p.segments.toValues)))).run
      w.environment w.host regs).1 = (register, .package p) :: regs := by
  have hmade : ((Maker.packageOfSegments (.value (.tuple p.segments.toValues))).make
      w.environment w.host regs).result = .ok (.package p) := by
    simp only [Maker.make, Logged.silent, Registers.resolve, bind_eq_ok_iff, pure_eq_ok_iff]
    exact ⟨_, rfl, p, p.ofOperand_toValues, rfl⟩
  simp only [Step.run, hmade]

theorem after_spell (w : World) (regs : Registers) (x : Identifier) :
    after regs ((spell x).map (w, ·)) =
      (x.internalClassName, .identifier x) :: ("", .package x.package) :: regs := by
  have hmade : ((Maker.identifierOfSegments (.register "") (.value (.tuple x.name.toValues))).make
      w.environment w.host (("", .package x.package) :: regs)).result = .ok (.identifier x) := by
    simp only [Maker.make, Logged.silent, Registers.resolve, Registers.get_cons_self,
      bind_eq_ok_iff, fmap_eq_ok_iff, pure_eq_ok_iff]
    exact ⟨_, ⟨_, rfl, rfl⟩, _, rfl, x, x.ofOperand_toValues, rfl⟩
  simp only [spell, List.map_cons, List.map_nil, after_cons, after_nil, run_packageOfSegments]
  simp only [Step.run, hmade]

/-- Every identifier has its own register, which is not the one of the packages. -/
theorem after_spell_all (w : World) (regs : Registers) (xs : List Identifier) {y : Identifier}
    (hy : y ∈ xs ∨ regs.get y.internalClassName = .ok (.identifier y)) :
    (after regs ((xs.flatMap spell).map (w, ·))).get y.internalClassName =
      .ok (.identifier y) := by
  induction xs generalizing regs with
  | nil => exact hy.resolve_left List.not_mem_nil
  | cons x xs ih =>
      rw [List.flatMap_cons, List.map_append, after_append, after_spell]
      -- The two new entries hide nothing but a package, since internal names are never empty.
      by_cases hxy : y = x
      · subst hxy
        apply ih
        exact .inr (Registers.get_cons_self _ _ _)
      · apply ih
        rcases hy with hmem | hget
        · exact .inl ((List.mem_cons.mp hmem).resolve_left hxy)
        · have hname : y.internalClassName ≠ x.internalClassName :=
            fun h => hxy (Identifier.internalClassName_injective h)
          have hempty : y.internalClassName ≠ "" := y.render_ne_empty .internal
          refine .inr ?_
          rw [Registers.get_cons_of_ne hname, Registers.get_cons_of_ne hempty]
          exact hget

theorem getAll_identifiers {regs : Registers} {xs : List Identifier}
    (h : ∀ x ∈ xs, regs.get x.internalClassName = .ok (.identifier x)) :
    regs.getAll (xs.map Identifier.internalClassName) = .ok (xs.map Item.identifier) := by
  induction xs with
  | nil => rfl
  | cons x xs ih =>
      obtain ⟨hx, hxs⟩ := List.forall_mem_cons.mp h
      rw [List.map_cons, Registers.getAll, hx, ih hxs]
      rfl

theorem holds_catalog (w : World) (source : Value) {xs : List Identifier} (hnd : xs.Nodup) :
    ∃ (steps : List Step) (i : Item), Holds (after [] (steps.map (w, ·))) i ∧
      i.content = .catalog (xs.map Identifier.spelling) source := by
  let c := (Catalog.ofNames source.shown xs).result
  let regs := after [] ((xs.flatMap spell).map (w, ·))
  have hget : regs.getAll (xs.map Identifier.internalClassName) = .ok (xs.map Item.identifier) :=
    getAll_identifiers fun x hx => after_spell_all w [] xs (.inl hx)
  have hmade : ((Maker.catalog (xs.map Identifier.internalClassName) source).make
      w.environment w.host regs).result = .ok (Item.ofCatalog c source) := by
    rw [Maker.make, hget, thenLogged, List.map_map]
    exact congrArg Logged.result (Item.catalogOf_identifiers source xs)
  refine ⟨xs.flatMap spell ++ [.make "" (.catalog (xs.map Identifier.internalClassName) source)],
    Item.ofCatalog c source, ⟨("", Item.ofCatalog c source), ?_, Item.mem_parts_self _⟩, ?_⟩
  · rw [List.map_append, after_append]
    simp only [List.map_cons, List.map_nil, after_cons, after_nil, Step.run]
    rw [hmade]
    exact List.mem_cons_self
  · have hnames : c.names = xs := firsts_eq_self hnd
    rw [Item.content_ofCatalog rfl, hnames]

/-- In any world there are steps that lead to a content, if it is well-formed. -/
theorem exists_steps_holds (w : World) {content : Content} (h : content.WellFormed) :
    ∃ (steps : List Step) (i : Item),
      Holds (after [] (steps.map (w, ·))) i ∧ i.content = content := by
  cases content with
  | package segments =>
      obtain ⟨g, rfl⟩ := IsSpelling.exists_segments h
      refine ⟨[.make "" (.packageOfSegments (.value (.tuple g.toValues)))], .package ⟨g⟩,
        ⟨("", .package ⟨g⟩), ?_, Item.mem_parts_self _⟩, rfl⟩
      rw [List.map_cons, after_cons, run_packageOfSegments w [] "" ⟨g⟩]
      exact List.mem_cons_self
  | identifier path name =>
      obtain ⟨x, hx⟩ : ∃ x : Identifier, x.spelling = (path, name) :=
        Identifier.exists_spelling h.1 h.2
      obtain ⟨rfl, rfl⟩ := Prod.mk.inj hx
      refine ⟨spell x, .identifier x,
        ⟨(x.internalClassName, .identifier x), ?_, Item.mem_parts_self _⟩, rfl⟩
      rw [after_spell]
      exact List.mem_cons_self
  | catalog names source =>
      obtain ⟨xs, rfl⟩ := Identifier.exists_spellings h.2
      exact holds_catalog w source h.1.of_map

/-- Whatever steps are done in whatever worlds, every item that exists is sound, and contents are
reached if and only if they are well-formed. A step only ever adds to the registers, and it leaves
them as they are when it fails, as each attempt to assign or delete a field does. -/
theorem items_stay_sound :
    (∀ (run : List (World × Step)) (i : Item), Holds (after [] run) i → i.Sound) ∧
      (∀ content : Content,
        (∃ run i, Holds (after [] run) i ∧ i.content = content) ↔ content.WellFormed) ∧
      (∀ (w : World) (regs : Registers) (step : Step),
        regs <:+ (step.run w.environment w.host regs).1 ∧
          ∀ f, (step.run w.environment w.host regs).2.result = .error f →
            (step.run w.environment w.host regs).1 = regs) ∧
      ∀ (w : World) (regs : Registers) (item field : Text),
        (∃ f, ((Step.ask (.assign item field)).run w.environment w.host regs).2.result =
          .error f) ∧
          ∃ f, ((Step.ask (.delete item field)).run w.environment w.host regs).2.result =
            .error f := by
  refine ⟨fun run i => sound_of_holds, ?_, fun w regs step => ⟨step.run_suffix, ?_⟩, ?_⟩
  · intro content
    constructor
    · rintro ⟨run, i, -, rfl⟩
      exact i.content_wellFormed
    · intro h
      obtain ⟨steps, i, hi, hcontent⟩ := exists_steps_holds ⟨[], Host.empty⟩ h
      exact ⟨_, i, hi, hcontent⟩
  · intro f
    exact Step.run_of_error
  · intro w regs item field
    simp only [Step.run, Logged.silent, Question.answer]
    cases regs.get item with
    | error f => exact ⟨⟨f, rfl⟩, f, rfl⟩
    | ok i => exact ⟨⟨_, rfl⟩, _, rfl⟩

/-- A dotted package and name make a catalog that carries a number for a source, and a text in the
place of segments is refused. -/
theorem items_stay_sound_number_source :
    let w : World := ⟨[], Host.empty⟩
    let regs := after [] [
      (w, .make "package" (.package (.value (.text "a.b")))),
      (w, .make "name" (.identifier (.register "package") (.value (.text "C.D")))),
      (w, .make "catalog" (.catalog ["name", "name"] (.int 1)))]
    let refused := (Step.make "package" (.packageOfSegments (.value (.text "a")))).run
      w.environment w.host regs
    (regs.length = 3 ∧ ∀ entry ∈ regs, ∀ i ∈ entry.2.parts, i.Sound) ∧
      refused.2.result =
        .error (.malformed (.refused (.value (.text "a")) (.notSequence .package))) ∧
      refused.1 = regs := by
  intro w regs refused
  have hrefused : refused.2.result =
      .error (.malformed (.refused (.value (.text "a")) (.notSequence .package))) := rfl
  refine ⟨⟨by decide, fun entry hentry i hi => ?_⟩, hrefused, ?_⟩
  · exact items_stay_sound.1 _ i ⟨entry, hentry, hi⟩
  · exact (items_stay_sound.2.2.1 w regs _).2 _ hrefused

end NameCatalog.Session
