import Mathlib.Data.List.Forall2
import NameCatalog.Catalog.Document
import NameCatalog.Proofs.Name.Dotted
import NameCatalog.Proofs.Outcome

/-!
# What an entry gives

A sound entry gives one identifier for each name it declares. Any other entry has a fault of its
own: its shape is looked at first, then its package, then its names in order.
-/

namespace NameCatalog.Document

open Value (lookup)

/-- Some element is bad for its place, and all before it are good. -/
def FirstBad {α : Type} (good : α → Prop) (bad : Nat → α → Prop) (xs : List α) : Prop :=
  ∃ before x after, xs = before ++ x :: after ∧ (∀ y ∈ before, good y) ∧ bad before.length x

theorem not_firstBad_nil {α : Type} {good : α → Prop} {bad : Nat → α → Prop} :
    ¬ FirstBad good bad [] := by
  rintro ⟨before, x, after, heq, -⟩
  simp at heq

theorem firstBad_cons_iff {α : Type} {good : α → Prop} {bad : Nat → α → Prop} {x : α}
    {xs : List α} : FirstBad good bad (x :: xs) ↔
      bad 0 x ∨ good x ∧ FirstBad good (fun n => bad (n + 1)) xs := by
  constructor
  · rintro ⟨before, y, after, heq, hbefore, hy⟩
    cases before with
    | nil =>
        cases heq
        exact .inl hy
    | cons z before =>
        cases heq
        exact .inr ⟨hbefore x List.mem_cons_self, before, y, after, rfl,
          fun w hw => hbefore w (List.mem_cons_of_mem x hw), hy⟩
  · rintro (hx | ⟨hx, before, y, after, rfl, hbefore, hy⟩)
    · exact ⟨[], x, xs, rfl, by simp, hx⟩
    · refine ⟨x :: before, y, after, rfl, ?_, hy⟩
      intro w hw
      rcases List.mem_cons.mp hw with rfl | hw
      · exact hx
      · exact hbefore w hw

/-- The names under an entry's fields may be missing, null or a list. -/
inductive Declares (fields : List (Value × Value)) : List Value → Prop where
  | missing (h : lookup "names" fields = none) : Declares fields []
  | null (h : lookup "names" fields = some .null) : Declares fields []
  | list {names : List Value} (h : lookup "names" fields = some (.list names)) :
      Declares fields names

/-- A mapping with a dotted package and perhaps a list of dotted names. -/
def IsEntry (entry : Value) : Prop :=
  ∃ fields package names, entry = .mapping fields ∧ lookup "package" fields = some package ∧
    package.IsDotted ∧ Declares fields names ∧ ∀ v ∈ names, v.IsDotted

/-- What is wrong with entry number `i`. -/
inductive EntryFault (i : Nat) : Value → DocumentFault → Prop where
  | notMapping {entry : Value} (h : ∀ fields, entry ≠ .mapping fields) :
      EntryFault i entry (.noPackage i)
  | noPackage {fields : List (Value × Value)} (h : lookup "package" fields = none) :
      EntryFault i (.mapping fields) (.noPackage i)
  | namesNotList {fields : List (Value × Value)} {package v : Value}
      (hpackage : lookup "package" fields = some package) (hnames : lookup "names" fields = some v)
      (hnull : v ≠ .null) (hlist : ∀ names, v ≠ .list names) :
      EntryFault i (.mapping fields) (.namesNotList i)
  | package {fields : List (Value × Value)} {package : Value} {names : List Value}
      {m : Malformed Value} (hpackage : lookup "package" fields = some package)
      (hnames : Declares fields names) (h : Package.ofDotted package = .error m) :
      EntryFault i (.mapping fields) (.malformed m)
  | name {fields : List (Value × Value)} {package : Value} {names : List Value} {p : Package}
      {m : Malformed Value} (hpackage : lookup "package" fields = some package)
      (hnames : Declares fields names) (hp : Package.ofDotted package = .ok p)
      (h : FirstBad Value.IsDotted (fun _ v => Identifier.ofDotted p v = .error m) names) :
      EntryFault i (.mapping fields) (.malformed m)

theorem declared_eq_ok_iff {i : Nat} {fields : List (Value × Value)} {names : List Value} :
    declared i fields = .ok names ↔ Declares fields names := by
  constructor
  · intro h
    unfold declared at h
    split at h
    · next hnone =>
        cases h
        exact .missing hnone
    · next hnull =>
        cases h
        exact .null hnull
    · next hlist =>
        cases h
        exact .list hlist
    · cases h
  · intro h
    cases h with
    | missing h => simp [declared, h]
    | null h => simp [declared, h]
    | list h => simp [declared, h]

theorem Declares.unique {fields : List (Value × Value)} {names names' : List Value}
    (h : Declares fields names) (h' : Declares fields names') : names = names' := by
  have hnames := (declared_eq_ok_iff (i := 0)).mpr h
  rw [declared_eq_ok_iff.mpr h'] at hnames
  exact (Except.ok.inj hnames).symm

theorem declared_eq_error_iff {i : Nat} {fields : List (Value × Value)} {f : DocumentFault} :
    declared i fields = .error f ↔ f = .namesNotList i ∧
      ∃ v, lookup "names" fields = some v ∧ v ≠ .null ∧ ∀ names, v ≠ .list names := by
  unfold declared
  split
  · next hnone => simp [hnone]
  · next hnull => simp [hnull]
  · next hlist => simp [hlist]
  · next v hnull hlist hv =>
      constructor
      · intro h
        cases h
        exact ⟨rfl, v, hv, hnull, hlist⟩
      · rintro ⟨rfl, -⟩
        rfl

/-! ## The names of one package -/

theorem identifiersIn_eq_ok_iff {p : Package} {vs : List Value} {xs : List Identifier} :
    identifiersIn p vs = .ok xs ↔ List.Forall₂ (Identifier.ofDotted p · = .ok ·) vs xs := by
  induction vs generalizing xs with
  | nil => rw [identifiersIn, Except.ok.injEq, List.forall₂_nil_left_iff, eq_comm]
  | cons v vs ih =>
      simp only [identifiersIn, bind_eq_ok_iff, pure_eq_ok_iff, ih, List.forall₂_cons_left_iff]
      constructor
      · rintro ⟨x, hx, ys, hys, rfl⟩
        exact ⟨x, ys, hx, hys, rfl⟩
      · rintro ⟨x, ys, hx, hys, rfl⟩
        exact ⟨x, hx, ys, hys, rfl⟩

theorem identifiersIn_eq_error_iff {p : Package} {vs : List Value} {m : Malformed Value} :
    identifiersIn p vs = .error m ↔
      FirstBad Value.IsDotted (fun _ v => Identifier.ofDotted p v = .error m) vs := by
  induction vs with
  | nil => simp [identifiersIn, not_firstBad_nil]
  | cons v vs ih =>
      simp only [identifiersIn, bind_eq_error_iff, pure_ne_error, and_false, exists_false,
        or_false, ih]
      rw [firstBad_cons_iff, Identifier.isDotted_iff p, exists_and_right]

theorem identifiersOf_eq_ok_iff {package : Value} {names : List Value} {xs : List Identifier} :
    identifiersOf package names = .ok xs ↔ ∃ p, Package.ofDotted package = .ok p ∧
      List.Forall₂ (Identifier.ofDotted p · = .ok ·) names xs := by
  simp only [identifiersOf, bind_eq_ok_iff, identifiersIn_eq_ok_iff]

theorem identifiersOf_eq_error_iff {package : Value} {names : List Value} {m : Malformed Value} :
    identifiersOf package names = .error m ↔ Package.ofDotted package = .error m ∨
      ∃ p, Package.ofDotted package = .ok p ∧
        FirstBad Value.IsDotted (fun _ v => Identifier.ofDotted p v = .error m) names := by
  simp only [identifiersOf, bind_eq_error_iff, identifiersIn_eq_error_iff]

/-! ## One entry -/

/-- The identifiers of an entry, one for each declared name. -/
def EntryGives (entry : Value) (xs : List Identifier) : Prop :=
  ∃ fields package names p, entry = .mapping fields ∧ lookup "package" fields = some package ∧
    Package.ofDotted package = .ok p ∧ Declares fields names ∧
    List.Forall₂ (Identifier.ofDotted p · = .ok ·) names xs

theorem entryNames_mapping {i : Nat} {fields : List (Value × Value)} {package : Value}
    (h : lookup "package" fields = some package) :
    entryNames i (.mapping fields) =
      declared i fields >>= fun names => (identifiersOf package names).mapError .malformed := by
  rw [entryNames, h]

theorem entryNames_noPackage {i : Nat} {fields : List (Value × Value)}
    (h : lookup "package" fields = none) :
    entryNames i (.mapping fields) = .error (.noPackage i) := by
  rw [entryNames, h]

theorem entryNames_eq_ok_iff {i : Nat} {entry : Value} {xs : List Identifier} :
    entryNames i entry = .ok xs ↔ EntryGives entry xs := by
  constructor
  · intro h
    cases entry with
    | mapping fields =>
        cases hpackage : lookup "package" fields with
        | none =>
            rw [entryNames_noPackage hpackage] at h
            cases h
        | some package =>
            simp only [entryNames_mapping hpackage, bind_eq_ok_iff, mapError_eq_ok_iff,
              declared_eq_ok_iff, identifiersOf_eq_ok_iff] at h
            obtain ⟨names, hnames, p, hp, hxs⟩ := h
            exact ⟨fields, package, names, p, rfl, hpackage, hp, hnames, hxs⟩
    | _ => cases h
  · rintro ⟨fields, package, names, p, rfl, hpackage, hp, hnames, hxs⟩
    simp only [entryNames_mapping hpackage, bind_eq_ok_iff, mapError_eq_ok_iff,
      declared_eq_ok_iff, identifiersOf_eq_ok_iff]
    exact ⟨names, hnames, p, hp, hxs⟩

theorem entryNames_eq_error_iff {i : Nat} {entry : Value} {f : DocumentFault} :
    entryNames i entry = .error f ↔ EntryFault i entry f := by
  constructor
  · intro h
    cases entry with
    | mapping fields =>
        cases hpackage : lookup "package" fields with
        | none =>
            rw [entryNames_noPackage hpackage] at h
            cases h
            exact .noPackage hpackage
        | some package =>
            simp only [entryNames_mapping hpackage, bind_eq_error_iff, mapError_eq_error_iff,
              declared_eq_ok_iff, declared_eq_error_iff, identifiersOf_eq_error_iff] at h
            rcases h with ⟨rfl, v, hv, hnull, hlist⟩ | ⟨names, hnames, m, hm | ⟨p, hp, hm⟩, rfl⟩
            · exact .namesNotList hpackage hv hnull hlist
            · exact .package hpackage hnames hm
            · exact .name hpackage hnames hp hm
    | _ =>
        cases h
        exact .notMapping (by simp)
  · intro h
    cases h with
    | notMapping h =>
        cases entry with
        | mapping fields => exact absurd rfl (h fields)
        | _ => rfl
    | noPackage h => exact entryNames_noPackage h
    | namesNotList hpackage hnames hnull hlist =>
        rw [entryNames_mapping hpackage, bind_eq_error_iff]
        exact .inl (declared_eq_error_iff.mpr ⟨rfl, _, hnames, hnull, hlist⟩)
    | package hpackage hnames h =>
        rw [entryNames_mapping hpackage, declared_eq_ok_iff.mpr hnames]
        exact mapError_eq_error_iff.mpr ⟨_, identifiersOf_eq_error_iff.mpr (.inl h), rfl⟩
    | name hpackage hnames hp h =>
        rw [entryNames_mapping hpackage, declared_eq_ok_iff.mpr hnames]
        exact mapError_eq_error_iff.mpr
          ⟨_, identifiersOf_eq_error_iff.mpr (.inr ⟨_, hp, h⟩), rfl⟩

/-- Dotted names of a dotted package make identifiers. -/
theorem exists_identifiers (p : Package) {names : List Value} (h : ∀ v ∈ names, v.IsDotted) :
    ∃ xs, List.Forall₂ (Identifier.ofDotted p · = .ok ·) names xs := by
  induction names with
  | nil => exact ⟨[], .nil⟩
  | cons v names ih =>
      obtain ⟨x, hx⟩ := (Identifier.isDotted_iff p).mp (h v List.mem_cons_self)
      obtain ⟨xs, hxs⟩ := ih fun u hu => h u (List.mem_cons_of_mem v hu)
      exact ⟨x :: xs, .cons hx hxs⟩

theorem isDotted_of_forall₂ {p : Package} {names : List Value} {xs : List Identifier}
    (h : List.Forall₂ (Identifier.ofDotted p · = .ok ·) names xs) : ∀ v ∈ names, v.IsDotted := by
  induction h with
  | nil => simp
  | @cons v x names xs hx _ ih =>
      intro u hu
      rcases List.mem_cons.mp hu with rfl | hu
      · exact (Identifier.isDotted_iff p).mpr ⟨x, hx⟩
      · exact ih u hu

theorem isEntry_iff {entry : Value} : IsEntry entry ↔ ∃ xs, EntryGives entry xs := by
  constructor
  · rintro ⟨fields, package, names, rfl, hlookup, hpackage, hdeclares, hnames⟩
    obtain ⟨p, hp⟩ := Package.isDotted_iff.mp hpackage
    obtain ⟨xs, hxs⟩ := exists_identifiers p hnames
    exact ⟨xs, fields, package, names, p, rfl, hlookup, hp, hdeclares, hxs⟩
  · rintro ⟨xs, fields, package, names, p, rfl, hlookup, hp, hdeclares, hxs⟩
    exact ⟨fields, package, names, rfl, hlookup, Package.isDotted_iff.mpr ⟨p, hp⟩, hdeclares,
      isDotted_of_forall₂ hxs⟩

end NameCatalog.Document
