/-!
# Outcomes of steps in a row

When a sequence of steps succeeds and when it fails, read off its steps.
-/

namespace NameCatalog

variable {ε ε' α β : Type}

theorem pure_eq_ok_iff {a b : α} : (pure a : Except ε α) = .ok b ↔ a = b :=
  ⟨Except.ok.inj, congrArg Except.ok⟩

theorem pure_ne_error {a : α} {e : ε} : ¬ (pure a : Except ε α) = .error e :=
  fun h => by cases h

theorem bind_eq_ok_iff {r : Except ε α} {f : α → Except ε β} {b : β} :
    r >>= f = .ok b ↔ ∃ a, r = .ok a ∧ f a = .ok b := by
  cases r with
  | error e => simp [bind, Except.bind]
  | ok a => simp [bind, Except.bind]

theorem bind_eq_error_iff {r : Except ε α} {f : α → Except ε β} {e : ε} :
    r >>= f = .error e ↔ r = .error e ∨ ∃ a, r = .ok a ∧ f a = .error e := by
  cases r with
  | error e => simp [bind, Except.bind]
  | ok a => simp [bind, Except.bind]

theorem fmap_eq_ok_iff {f : α → β} {r : Except ε α} {b : β} :
    f <$> r = .ok b ↔ ∃ a, r = .ok a ∧ f a = b := by
  cases r with
  | error e => simp [Functor.map, Except.map]
  | ok a => simp [Functor.map, Except.map]

theorem map_eq_ok_iff {f : α → β} {r : Except ε α} {b : β} :
    r.map f = .ok b ↔ ∃ a, r = .ok a ∧ f a = b :=
  fmap_eq_ok_iff

theorem fmap_eq_error_iff {f : α → β} {r : Except ε α} {e : ε} :
    f <$> r = .error e ↔ r = .error e := by
  cases r with
  | error e => simp [Functor.map, Except.map]
  | ok a => simp [Functor.map, Except.map]

theorem map_eq_error_iff {f : α → β} {r : Except ε α} {e : ε} :
    r.map f = .error e ↔ r = .error e :=
  fmap_eq_error_iff

@[simp] theorem mapError_ok (g : ε → ε') (a : α) :
    (Except.ok a : Except ε α).mapError g = .ok a := rfl

@[simp] theorem mapError_error (g : ε → ε') (e : ε) :
    (Except.error e : Except ε α).mapError g = .error (g e) := rfl

theorem mapError_eq_ok_iff {g : ε → ε'} {r : Except ε α} {a : α} :
    r.mapError g = .ok a ↔ r = .ok a := by
  cases r with
  | error e => simp
  | ok a => simp

theorem mapError_eq_error_iff {g : ε → ε'} {r : Except ε α} {e : ε'} :
    r.mapError g = .error e ↔ ∃ e', r = .error e' ∧ g e' = e := by
  cases r with
  | error e => simp
  | ok a => simp

theorem map_mapError (f : α → β) (g : ε → ε') (r : Except ε α) :
    (r.mapError g).map f = (r.map f).mapError g := by
  cases r with
  | error e => rfl
  | ok a => rfl

/-- The fault of a step that fails. -/
def fault? : Except ε α → Option ε
  | .ok _ => none
  | .error e => some e

theorem fault?_eq_some_iff {r : Except ε α} {e : ε} : fault? r = some e ↔ r = .error e := by
  cases r with
  | ok a => simp [fault?]
  | error e => simp [fault?]

/-- Success can be computed, also where results cannot be compared. -/
theorem exists_ok_of_isNone {r : Except ε α} (h : (fault? r).isNone = true) : ∃ a, r = .ok a := by
  cases r with
  | ok a => exact ⟨a, rfl⟩
  | error e => cases h

theorem toOption_map_eq_some_iff {f : α → β} {r : Except ε α} {b : β} :
    r.toOption.map f = some b ↔ ∃ a, r = .ok a ∧ f a = b := by
  cases r with
  | ok a => simp [Except.toOption]
  | error e => simp [Except.toOption]

/-! ## The first failure in a row -/

theorem exists_first_error {rs : List (Except ε α)} {e : ε} (h : .error e ∈ rs) :
    ∃ (as : List α) (first : ε) (rest : List (Except ε α)),
      rs = as.map .ok ++ .error first :: rest := by
  induction rs with
  | nil => cases h
  | cons r rs ih =>
      cases r with
      | error first => exact ⟨[], first, rs, rfl⟩
      | ok a =>
          have htail : .error e ∈ rs := by simpa using h
          obtain ⟨as, first, rest, rfl⟩ := ih htail
          exact ⟨a :: as, first, rest, rfl⟩

/-- What stands behind the first failure does not matter. -/
theorem mapM_id_first_error (as : List α) (e : ε) (rest : List (Except ε α)) :
    (as.map Except.ok ++ Except.error e :: rest).mapM id = .error e := by
  induction as with
  | nil => rfl
  | cons a as ih =>
      rw [List.map_cons, List.cons_append, List.mapM_cons, ih]
      rfl

/-! ## Rows without a failure -/

theorem mapM_eq_ok_iff {f : β → Except ε α} {bs : List β} {as : List α} :
    bs.mapM f = .ok as ↔ bs.map f = as.map .ok := by
  induction bs generalizing as with
  | nil =>
      rw [List.mapM_nil, pure_eq_ok_iff, List.map_nil, List.nil_eq, List.nil_eq,
        List.map_eq_nil_iff]
  | cons b bs ih =>
      rw [List.mapM_cons, bind_eq_ok_iff, List.map_cons]
      constructor
      · rintro ⟨a, ha, hrest⟩
        obtain ⟨rest, hmapM, hpure⟩ := bind_eq_ok_iff.mp hrest
        rw [← pure_eq_ok_iff.mp hpure, List.map_cons, ha, ih.mp hmapM]
      · intro h
        cases as with
        | nil => cases h
        | cons a as =>
            obtain ⟨ha, hrest⟩ := List.cons.inj h
            exact ⟨a, ha, bind_eq_ok_iff.mpr ⟨as, ih.mpr hrest, rfl⟩⟩

theorem exists_mapM_eq_ok_iff {f : β → Except ε α} {bs : List β} :
    (∃ as, bs.mapM f = .ok as) ↔ ∀ b ∈ bs, ∃ a, f b = .ok a := by
  simp only [mapM_eq_ok_iff]
  constructor
  · rintro ⟨as, has⟩ b hb
    have hmem : f b ∈ as.map Except.ok := has ▸ List.mem_map_of_mem hb
    obtain ⟨a, -, ha⟩ := List.mem_map.mp hmem
    exact ⟨a, ha.symm⟩
  · intro h
    induction bs with
    | nil => exact ⟨[], rfl⟩
    | cons b bs ih =>
        obtain ⟨⟨a, ha⟩, hbs⟩ := List.forall_mem_cons.mp h
        obtain ⟨as, has⟩ := ih hbs
        exact ⟨a :: as, by rw [List.map_cons, List.map_cons, ha, has]⟩

/-- In a row of steps all succeed, or one of them is the first that does not. -/
theorem all_ok_or_first_error (f : β → Except ε α) (bs : List β) :
    (∃ as : List α, bs.map f = as.map .ok) ∨
      ∃ before b after e, bs = before ++ b :: after ∧ (∀ x ∈ before, ∃ a, f x = .ok a) ∧
        f b = .error e := by
  induction bs with
  | nil => exact .inl ⟨[], rfl⟩
  | cons b bs ih =>
      cases hb : f b with
      | error e => exact .inr ⟨[], b, bs, e, rfl, List.forall_mem_nil _, hb⟩
      | ok a =>
          rcases ih with ⟨as, has⟩ | ⟨before, c, after, e, rfl, hbefore, hc⟩
          · exact .inl ⟨a :: as, by rw [List.map_cons, List.map_cons, hb, has]⟩
          · refine .inr ⟨b :: before, c, after, e, rfl, ?_, hc⟩
            exact List.forall_mem_cons.mpr ⟨⟨a, hb⟩, hbefore⟩

/-! ## How a step ends -/

/-- A step ends with a result of the one kind or with a fault of the other. -/
inductive Ends (E : ε → Prop) (P : α → Prop) : Except ε α → Prop
  | ok {a : α} (h : P a) : Ends E P (.ok a)
  | error {e : ε} (h : E e) : Ends E P (.error e)

namespace Ends

variable {E : ε → Prop} {P Q : α → Prop} {R : β → Prop} {x : Except ε α}

theorem of_ok {a : α} (h : Ends E P x) (hx : x = .ok a) : P a := by
  subst hx
  cases h with
  | ok h => exact h

theorem of_error {e : ε} (h : Ends E P x) (hx : x = .error e) : E e := by
  subst hx
  cases h with
  | error h => exact h

theorem imp (h : Ends E P x) (hPQ : ∀ a, P a → Q a) : Ends E Q x := by
  cases h with
  | ok h => exact .ok (hPQ _ h)
  | error h => exact .error h

theorem bind {f : α → Except ε β} (h : Ends E P x) (hf : ∀ a, P a → Ends E R (f a)) :
    Ends E R (x >>= f) := by
  cases h with
  | ok h => exact hf _ h
  | error h => exact .error h

theorem map {f : α → β} (h : Ends E P x) (hf : ∀ a, P a → R (f a)) : Ends E R (x.map f) := by
  cases h with
  | ok h => exact .ok (hf _ h)
  | error h => exact .error h

theorem ite {c : Prop} [Decidable c] {y : Except ε α} (hx : c → Ends E P x)
    (hy : ¬ c → Ends E P y) : Ends E P (if c then x else y) := by
  split
  · next hc => exact hx hc
  · next hc => exact hy hc

theorem mapM {f : β → Except ε α} {bs : List β} (h : ∀ b ∈ bs, Ends E P (f b)) :
    Ends E (fun as => ∀ a ∈ as, P a) (bs.mapM f) := by
  induction bs with
  | nil => exact .ok (List.forall_mem_nil P)
  | cons b bs ih =>
      rw [List.mapM_cons]
      refine (h b List.mem_cons_self).bind fun a ha => ?_
      refine (ih fun c hc => h c (List.mem_cons_of_mem b hc)).bind fun as has => ?_
      exact .ok (List.forall_mem_cons.mpr ⟨ha, has⟩)

end Ends

end NameCatalog
