import NameCatalog.Proofs.Document.Shape

/-!
# Documents cut into parts

Entries can be spread over several documents that are merged afterwards, and the names of one entry
over several entries with the same package. The names and the number of repeats stay the same; of
a fault only the number of its entry moves.
-/

namespace NameCatalog

/-! ## Fields put in their place -/

namespace Value

theorem sameKey_text_iff {k : Value} {s : Text} : k.sameKey (.text s) = true ↔ k = .text s := by
  cases k with
  | text t => simp [sameKey]
  | real x => simp [sameKey, asInt?]
  | _ => simp [sameKey, asInt?]

theorem lookup_putEntry_self (fields : List (Value × Value)) (key : Text) (v : Value) :
    lookup key (putEntry fields (.text key) v) = some v := by
  induction fields with
  | nil => simp [putEntry]
  | cons field fields ih =>
      obtain ⟨k, w⟩ := field
      by_cases hk : k = .text key
      · simp [putEntry, hk, sameKey]
      · have hkey : k.sameKey (.text key) = false := by
          simpa using mt sameKey_text_iff.mp hk
        have htext : ∀ t, k = .text t → t ≠ key := by
          rintro t rfl rfl
          exact hk rfl
        simp only [putEntry, hkey]
        cases k with
        | text t => simpa [lookup, htext t rfl] using ih
        | _ => simpa [lookup] using ih

theorem lookup_putEntry_of_ne {key other : Text} (h : key ≠ other)
    (fields : List (Value × Value)) (v : Value) :
    lookup key (putEntry fields (.text other) v) = lookup key fields := by
  induction fields with
  | nil => simp [putEntry, lookup, h.symm]
  | cons field fields ih =>
      obtain ⟨k, w⟩ := field
      by_cases hk : k = .text other
      · simp [putEntry, hk, sameKey, lookup, h.symm]
      · have hother : k.sameKey (.text other) = false := by
          simpa using mt sameKey_text_iff.mp hk
        simp only [putEntry, hother]
        cases k with
        | text t => simp [lookup, ih]
        | _ => simpa [lookup] using ih

end Value

/-- The fault when so many entries more stand in front. -/
def DocumentFault.shift (n : Nat) : DocumentFault → DocumentFault
  | .noPackage i => .noPackage (i + n)
  | .namesNotList i => .namesNotList (i + n)
  | f => f

namespace Document

open Value (lookup)

/-- A document of these entries; with no other fields it is only a list of packages. -/
def withEntries (fields : List (Value × Value)) (es : List Value) : Value :=
  .mapping (Value.putEntry fields (.text "packages") (.list es))

def withNames (fields : List (Value × Value)) (names : List Value) : Value :=
  .mapping (Value.putEntry fields (.text "names") (.list names))

theorem names_withEntries (fields : List (Value × Value)) (es : List Value) :
    names (withEntries fields es) = namesFrom 0 es := by
  have hentries : HasEntries (withEntries fields es) es :=
    .list (Value.lookup_putEntry_self fields "packages" (.list es))
  rw [names, entries_eq_ok_iff.mpr hentries]
  rfl

/-! ## Entries under other numbers -/

theorem declared_add (i n : Nat) (fields : List (Value × Value)) :
    declared (i + n) fields = (declared i fields).mapError (·.shift n) := by
  unfold declared
  split <;> rfl

theorem entryNames_add (i n : Nat) (entry : Value) :
    entryNames (i + n) entry = (entryNames i entry).mapError (·.shift n) := by
  cases entry with
  | mapping fields =>
      cases hpackage : lookup "package" fields with
      | none =>
          rw [entryNames_noPackage hpackage, entryNames_noPackage hpackage]
          rfl
      | some package =>
          rw [entryNames_mapping hpackage, entryNames_mapping hpackage, declared_add]
          cases declared i fields with
          | error f => rfl
          | ok vs =>
              cases hxs : identifiersOf package vs with
              | error m => simp [bind, Except.bind, hxs, DocumentFault.shift]
              | ok xs => simp [bind, Except.bind, hxs]
  | _ => rfl

theorem namesFrom_add (i n : Nat) (es : List Value) :
    namesFrom (i + n) es = (namesFrom i es).mapError (·.shift n) := by
  induction es generalizing i with
  | nil => rfl
  | cons e es ih =>
      have hrest : namesFrom (i + n + 1) es = (namesFrom (i + 1) es).mapError (·.shift n) := by
        rw [← ih (i + 1), Nat.add_right_comm]
      simp only [namesFrom, entryNames_add, hrest]
      cases entryNames i e with
      | error f => rfl
      | ok xs =>
          cases namesFrom (i + 1) es with
          | error f => rfl
          | ok ys => rfl

theorem namesFrom_append (i : Nat) (as bs : List Value) :
    namesFrom i (as ++ bs) =
      namesFrom i as >>= fun xs => (xs ++ ·) <$> namesFrom (i + as.length) bs := by
  induction as generalizing i with
  | nil =>
      simp only [List.nil_append, namesFrom, List.length_nil, Nat.add_zero]
      cases namesFrom i bs with
      | error f => rfl
      | ok ys => rfl
  | cons a as ih =>
      have hlength : i + 1 + as.length = i + (a :: as).length := by
        simp only [List.length_cons]
        omega
      simp only [List.cons_append, namesFrom, ih, hlength]
      cases entryNames i a with
      | error f => rfl
      | ok xs =>
          cases namesFrom (i + 1) as with
          | error f => rfl
          | ok ys =>
              cases namesFrom (i + (a :: as).length) bs with
              | error f => rfl
              | ok zs => simp [bind, Except.bind, Functor.map, Except.map, pure, Except.pure]

/-- The entries behind others are read as if they stood alone. -/
theorem names_withEntries_append (fields : List (Value × Value)) (as bs : List Value) :
    names (withEntries fields (as ++ bs)) =
      names (withEntries fields as) >>= fun xs =>
        (xs ++ ·) <$> (names (withEntries fields bs)).mapError (·.shift as.length) := by
  simp only [names_withEntries, namesFrom_append, namesFrom_add]

theorem names_withEntries_append_eq_ok_iff {fields : List (Value × Value)} {as bs : List Value}
    {zs : List Identifier} :
    names (withEntries fields (as ++ bs)) = .ok zs ↔
      ∃ xs ys, names (withEntries fields as) = .ok xs ∧ names (withEntries fields bs) = .ok ys ∧
        xs ++ ys = zs := by
  simp only [names_withEntries_append, bind_eq_ok_iff, fmap_eq_ok_iff, mapError_eq_ok_iff,
    exists_and_left]

theorem names_withEntries_append_eq_error_iff {fields : List (Value × Value)} {as bs : List Value}
    {f : DocumentFault} :
    names (withEntries fields (as ++ bs)) = .error f ↔
      names (withEntries fields as) = .error f ∨
        ∃ xs, names (withEntries fields as) = .ok xs ∧
          ∃ g, names (withEntries fields bs) = .error g ∧ g.shift as.length = f := by
  simp only [names_withEntries_append, bind_eq_error_iff, fmap_eq_error_iff,
    mapError_eq_error_iff]

/-! ## One entry as two -/

theorem entryPairs_withNames {fields : List (Value × Value)} (names : List Value) :
    entryPairs (withNames fields names) =
      (lookup "package" fields).elim [] fun package => names.map (package, ·) := by
  have hpackage := Value.lookup_putEntry_of_ne (show ("package" : Text) ≠ "names" by decide) fields
    (.list names)
  have hnames := Value.lookup_putEntry_self fields "names" (.list names)
  simp only [withNames, entryPairs, hpackage, hnames]
  cases lookup "package" fields with
  | none => rfl
  | some package => rfl

theorem isEntry_withNames {fields : List (Value × Value)} {names : List Value} :
    IsEntry (withNames fields names) ↔
      (∃ package, lookup "package" fields = some package ∧ package.IsDotted) ∧
        ∀ v ∈ names, v.IsDotted := by
  have hpackage := Value.lookup_putEntry_of_ne (show ("package" : Text) ≠ "names" by decide) fields
    (.list names)
  have hnames := Value.lookup_putEntry_self fields "names" (.list names)
  constructor
  · rintro ⟨_, package, declared, heq, hlookup, hdotted, hdeclares, hall⟩
    cases heq
    rw [hpackage] at hlookup
    have hsame : declared = names := hdeclares.unique (.list hnames)
    exact ⟨⟨package, hlookup, hdotted⟩, hsame ▸ hall⟩
  · rintro ⟨⟨package, hlookup, hdotted⟩, hall⟩
    exact ⟨_, package, names, rfl, hpackage.trans hlookup, hdotted, .list hnames, hall⟩

/-- Two entries with the same package give what one entry with the names of both gives. -/
theorem namesFrom_withNames_append {i : Nat} {fields : List (Value × Value)}
    {before after vs ws : List Value} {xs : List Identifier} :
    namesFrom i (before ++ withNames fields vs :: withNames fields ws :: after) = .ok xs ↔
      namesFrom i (before ++ withNames fields (vs ++ ws) :: after) = .ok xs := by
  have hpairs : entryPairs (withNames fields vs) ++ entryPairs (withNames fields ws) =
      entryPairs (withNames fields (vs ++ ws)) := by
    simp only [entryPairs_withNames]
    cases lookup "package" fields with
    | none => rfl
    | some package => simp
  have hentry : IsEntry (withNames fields vs) ∧ IsEntry (withNames fields ws) ↔
      IsEntry (withNames fields (vs ++ ws)) := by
    simp only [isEntry_withNames, List.forall_mem_append]
    exact and_and_left.symm
  simp only [namesFrom_eq_ok_iff, List.flatMap_append, List.flatMap_cons, List.forall_mem_append,
    List.forall_mem_cons, ← hpairs, ← hentry, List.append_assoc, and_assoc]

end Document

/-! ## Catalogs of parts -/

def Notice.isDuplicate : Notice → Bool
  | .duplicate _ _ => true
  | .loaded _ _ => false

def Logged.duplicates {α : Type} (x : Logged α) : Nat := x.notices.countP Notice.isDuplicate

namespace Catalog

def ofEntries (path : Text) (fields : List (Value × Value)) (es : List Value) :
    Logged (Except DocumentFault Catalog) :=
  ofDocument path (Document.withEntries fields es)

theorem duplicates_ofNames (source : Text) (xs : List Identifier) :
    (ofNames source xs).duplicates = (repeats xs).length := by
  have hall : (Notice.isDuplicate ∘ fun x => Notice.duplicate x source) = fun _ => true := rfl
  rw [Logged.duplicates, ofNames, List.countP_map, hall, List.countP_true]

theorem ofEntries_result_eq_ok_iff {path : Text} {fields : List (Value × Value)}
    {es : List Value} {c : Catalog} :
    (ofEntries path fields es).result = .ok c ↔
      ∃ xs, Document.names (Document.withEntries fields es) = .ok xs ∧
        (ofNames path xs).result = c :=
  ofDocument_result_eq_ok_iff

theorem ofEntries_result_eq_error_iff {path : Text} {fields : List (Value × Value)}
    {es : List Value} {f : DocumentFault} :
    (ofEntries path fields es).result = .error f ↔
      Document.names (Document.withEntries fields es) = .error f :=
  ofDocument_result_eq_error_iff

/-- A merge goes through what is left of the names of its parts. -/
theorem merge_pair (source : Text) (xs ys : List Identifier) :
    ∃ merged, merge [(ofNames source xs).result, (ofNames source ys).result] =
      ofNames merged (firsts xs ++ firsts ys) := by
  refine ⟨mergedSource [(ofNames source xs).result, (ofNames source ys).result], ?_⟩
  simp [merge, ofNames]

theorem names_merge_pair (source : Text) (xs ys : List Identifier) :
    (merge [(ofNames source xs).result, (ofNames source ys).result]).result.names =
      firsts (xs ++ ys) := by
  obtain ⟨merged, hmerge⟩ := merge_pair source xs ys
  rw [hmerge]
  exact firsts_firsts_append xs ys

/-- A repeat is found in one of the parts or when they are put together. -/
theorem duplicates_merge_pair (source : Text) (xs ys : List Identifier) :
    (repeats (xs ++ ys)).length = (repeats xs).length + (repeats ys).length +
      (merge [(ofNames source xs).result, (ofNames source ys).result]).duplicates := by
  obtain ⟨merged, hmerge⟩ := merge_pair source xs ys
  -- What is kept and what is left out add up to the whole list, wherever it is cleaned.
  have hxs := length_firsts_add_length_repeats xs
  have hys := length_firsts_add_length_repeats ys
  have hall := length_firsts_add_length_repeats (xs ++ ys)
  have hparts := length_firsts_add_length_repeats (firsts xs ++ firsts ys)
  rw [firsts_firsts_append] at hparts
  rw [hmerge, duplicates_ofNames]
  simp only [List.length_append] at hall hparts
  omega

theorem ofEntries_eq_ok_iff {path : Text} {fields : List (Value × Value)} {es : List Value}
    {notices : List Notice} {c : Catalog} :
    ofEntries path fields es = ⟨notices, .ok c⟩ ↔
      ∃ xs, Document.names (Document.withEntries fields es) = .ok xs ∧
        (ofNames path xs).notices ++ [.loaded (ofNames path xs).result.size path] = notices ∧
        (ofNames path xs).result = c := by
  unfold ofEntries ofDocument
  cases Document.names (Document.withEntries fields es) with
  | error f => simp [Logged.silent]
  | ok xs => simp

theorem duplicates_ofEntries {path : Text} {fields : List (Value × Value)} {es : List Value}
    {xs : List Identifier} (h : Document.names (Document.withEntries fields es) = .ok xs) :
    (ofEntries path fields es).duplicates = (repeats xs).length := by
  rw [ofEntries_eq_ok_iff.mpr ⟨xs, h, rfl, rfl⟩, ← duplicates_ofNames path xs]
  simp [Logged.duplicates, Notice.isDuplicate]

/-- A document of two lists of entries is read when both parts are, and gives their merged names;
all repeats are reported once, in a part or by the merge. The fault of the first part comes before
the fault of the second, which keeps all but its number. An entry may share its names with another
one that stands behind it. -/
theorem ofEntries_splits (path : Text) (fields : List (Value × Value)) (as bs : List Value) :
    ((∃ c, (ofEntries path fields (as ++ bs)).result = .ok c) ↔
        (∃ a, (ofEntries path fields as).result = .ok a) ∧
          ∃ b, (ofEntries path fields bs).result = .ok b) ∧
      (∀ c, (ofEntries path fields (as ++ bs)).result = .ok c ↔
        ∃ a b, (ofEntries path fields as).result = .ok a ∧
          (ofEntries path fields bs).result = .ok b ∧
          c.source = path ∧ c.names = (merge [a, b]).result.names ∧
          (ofEntries path fields (as ++ bs)).duplicates =
            (ofEntries path fields as).duplicates + (ofEntries path fields bs).duplicates +
              (merge [a, b]).duplicates) ∧
      (∀ f, (ofEntries path fields (as ++ bs)).result = .error f ↔
        (ofEntries path fields as).result = .error f ∨
          (∃ a, (ofEntries path fields as).result = .ok a) ∧
            ∃ g, (ofEntries path fields bs).result = .error g ∧ g.shift as.length = f) ∧
      ∀ (before after : List Value) (entry : List (Value × Value)) (vs ws : List Value)
        (notices : List Notice) (c : Catalog),
        ofEntries path fields (before ++ Document.withNames entry (vs ++ ws) :: after) =
            ⟨notices, .ok c⟩ ↔
          ofEntries path fields
              (before ++ Document.withNames entry vs :: Document.withNames entry ws :: after) =
            ⟨notices, .ok c⟩ := by
  refine ⟨?_, ?_, ?_, ?_⟩
  · simp only [ofEntries_result_eq_ok_iff, Document.names_withEntries_append_eq_ok_iff]
    constructor
    · rintro ⟨_, _, ⟨xs, ys, hxs, hys, rfl⟩, -⟩
      exact ⟨⟨_, xs, hxs, rfl⟩, _, ys, hys, rfl⟩
    · rintro ⟨⟨_, xs, hxs, -⟩, _, ys, hys, -⟩
      exact ⟨_, _, ⟨xs, ys, hxs, hys, rfl⟩, rfl⟩
  · intro c
    simp only [ofEntries_result_eq_ok_iff]
    constructor
    · rintro ⟨zs, hzs, rfl⟩
      obtain ⟨xs, ys, hxs, hys, rfl⟩ := Document.names_withEntries_append_eq_ok_iff.mp hzs
      refine ⟨_, _, ⟨xs, hxs, rfl⟩, ⟨ys, hys, rfl⟩, rfl, (names_merge_pair path xs ys).symm, ?_⟩
      rw [duplicates_ofEntries hzs, duplicates_ofEntries hxs, duplicates_ofEntries hys]
      exact duplicates_merge_pair path xs ys
    · rintro ⟨_, _, ⟨xs, hxs, rfl⟩, ⟨ys, hys, rfl⟩, hsource, hnames, -⟩
      have hzs := Document.names_withEntries_append_eq_ok_iff.mpr ⟨xs, ys, hxs, hys, rfl⟩
      refine ⟨xs ++ ys, hzs, ?_⟩
      rw [ofNames_result_eq_iff, ← firsts_eq_eraseDups, hnames, names_merge_pair]
      exact ⟨hsource, rfl⟩
  · intro f
    simp only [ofEntries_result_eq_ok_iff, ofEntries_result_eq_error_iff,
      Document.names_withEntries_append_eq_error_iff]
    constructor
    · rintro (hf | ⟨xs, hxs, hg⟩)
      · exact .inl hf
      · exact .inr ⟨⟨_, xs, hxs, rfl⟩, hg⟩
    · rintro (hf | ⟨⟨_, xs, hxs, -⟩, hg⟩)
      · exact .inl hf
      · exact .inr ⟨xs, hxs, hg⟩
  · intro before after entry vs ws notices c
    simp only [ofEntries_eq_ok_iff, Document.names_withEntries,
      Document.namesFrom_withNames_append]

end Catalog

end NameCatalog
