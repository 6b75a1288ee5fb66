import NameCatalog.Proofs.Catalog.FirstOccurrences
import NameCatalog.Proofs.Document.Entries

/-!
# Which documents are catalogs

A document is a catalog when all its entries are sound, and then it gives an identifier for each
pair of a package and a name in it, repeats left out. Any other document has exactly one fault, that
of the document itself or that of its first entry that is not sound.
-/

namespace NameCatalog

namespace Document

open Value (lookup)

/-- The entries of a document may be missing, but not null. -/
inductive HasEntries : Value → List Value → Prop where
  | null : HasEntries .null []
  | missing {fields : List (Value × Value)} (h : lookup "packages" fields = none) :
      HasEntries (.mapping fields) []
  | list {fields : List (Value × Value)} {es : List Value}
      (h : lookup "packages" fields = some (.list es)) : HasEntries (.mapping fields) es

def IsCatalog (doc : Value) : Prop :=
  ∃ es, HasEntries doc es ∧ ∀ e ∈ es, IsEntry e

/-- What is wrong with a document. -/
inductive HasFault : Value → DocumentFault → Prop where
  | notMapping {doc : Value} (hnull : doc ≠ .null) (h : ∀ fields, doc ≠ .mapping fields) :
      HasFault doc .notMapping
  | packagesNotList {fields : List (Value × Value)} {v : Value}
      (h : lookup "packages" fields = some v) (hlist : ∀ es, v ≠ .list es) :
      HasFault (.mapping fields) .packagesNotList
  | entry {doc : Value} {es : List Value} {f : DocumentFault} (h : HasEntries doc es)
      (hbad : FirstBad IsEntry (fun i e => EntryFault i e f) es) : HasFault doc f

/-- The package of an entry together with each of its names. -/
def entryPairs : Value → List (Value × Value)
  | .mapping fields =>
    match lookup "package" fields, lookup "names" fields with
    | some package, some (.list names) => names.map (package, ·)
    | _, _ => []
  | _ => []

/-- All packages and names in the order in which they stand. -/
def pairs : Value → List (Value × Value)
  | .mapping fields =>
    match lookup "packages" fields with
    | some (.list es) => es.flatMap entryPairs
    | _ => []
  | _ => []

/-- The identifier of a package and a name, both given as dotted texts. -/
def Makes (pair : Value × Value) (x : Identifier) : Prop :=
  ∃ p, Package.ofDotted pair.1 = .ok p ∧ Identifier.ofDotted p pair.2 = .ok x

/-! ## Entries one after the other -/

theorem forall₂_append_left_iff {α β : Type} {R : α → β → Prop} {as bs : List α} {cs : List β} :
    List.Forall₂ R (as ++ bs) cs ↔
      ∃ ds es, List.Forall₂ R as ds ∧ List.Forall₂ R bs es ∧ cs = ds ++ es := by
  constructor
  · intro h
    exact ⟨cs.take as.length, cs.drop as.length,
      by simpa using List.forall₂_take as.length h, by simpa using List.forall₂_drop as.length h,
      (List.take_append_drop as.length cs).symm⟩
  · rintro ⟨ds, es, hds, hes, rfl⟩
    exact List.rel_append hds hes

theorem entryPairs_of_declares {fields : List (Value × Value)} {package : Value}
    {names : List Value} (hpackage : lookup "package" fields = some package)
    (hnames : Declares fields names) :
    entryPairs (.mapping fields) = names.map (package, ·) := by
  cases hnames with
  | missing h => simp [entryPairs, hpackage, h]
  | null h => simp [entryPairs, hpackage, h]
  | list h => simp [entryPairs, hpackage, h]

theorem entryGives_iff {entry : Value} {xs : List Identifier} :
    EntryGives entry xs ↔ IsEntry entry ∧ List.Forall₂ Makes (entryPairs entry) xs := by
  constructor
  · intro h
    refine ⟨isEntry_iff.mpr ⟨xs, h⟩, ?_⟩
    obtain ⟨fields, package, names, p, rfl, hpackage, hp, hnames, hxs⟩ := h
    rw [entryPairs_of_declares hpackage hnames, List.forall₂_map_left_iff]
    exact hxs.imp fun v x hx => ⟨p, hp, hx⟩
  · rintro ⟨⟨fields, package, names, rfl, hpackage, hdotted, hnames, -⟩, hxs⟩
    obtain ⟨p, hp⟩ := Package.isDotted_iff.mp hdotted
    rw [entryPairs_of_declares hpackage hnames, List.forall₂_map_left_iff] at hxs
    refine ⟨fields, package, names, p, rfl, hpackage, hp, hnames, hxs.imp ?_⟩
    rintro v x ⟨q, hq, hx⟩
    cases hp.symm.trans hq
    exact hx

theorem namesFrom_eq_ok_iff {i : Nat} {es : List Value} {xs : List Identifier} :
    namesFrom i es = .ok xs ↔
      (∀ e ∈ es, IsEntry e) ∧ List.Forall₂ Makes (es.flatMap entryPairs) xs := by
  induction es generalizing i xs with
  | nil => simp [namesFrom, eq_comm]
  | cons e es ih =>
      simp only [namesFrom, bind_eq_ok_iff, pure_eq_ok_iff, entryNames_eq_ok_iff, ih,
        entryGives_iff, List.flatMap_cons, forall₂_append_left_iff, List.forall_mem_cons]
      constructor
      · rintro ⟨ys, ⟨he, hys⟩, zs, ⟨hes, hzs⟩, rfl⟩
        exact ⟨⟨he, hes⟩, ys, zs, hys, hzs, rfl⟩
      · rintro ⟨⟨he, hes⟩, ys, zs, hys, hzs, rfl⟩
        exact ⟨ys, ⟨he, hys⟩, zs, ⟨hes, hzs⟩, rfl⟩

theorem namesFrom_eq_error_iff {i : Nat} {es : List Value} {f : DocumentFault} :
    namesFrom i es = .error f ↔ FirstBad IsEntry (fun n e => EntryFault (i + n) e f) es := by
  induction es generalizing i with
  | nil => simp [namesFrom, not_firstBad_nil]
  | cons e es ih =>
      simp only [namesFrom, bind_eq_error_iff, pure_ne_error, and_false, exists_false, or_false,
        entryNames_eq_error_iff, entryNames_eq_ok_iff, ih]
      -- The first of the remaining entries has number `i + 1` here and place `0` in `FirstBad`.
      rw [firstBad_cons_iff, isEntry_iff, exists_and_right]
      simp only [Nat.add_assoc, Nat.add_comm 1, Nat.add_zero]

theorem entries_eq_ok_iff {doc : Value} {es : List Value} :
    entries doc = .ok es ↔ HasEntries doc es := by
  constructor
  · intro h
    cases doc with
    | null =>
        cases h
        exact .null
    | mapping fields =>
        simp only [entries] at h
        split at h
        · next hnone =>
            cases h
            exact .missing hnone
        · next hlist =>
            cases h
            exact .list hlist
        · cases h
    | _ => cases h
  · intro h
    cases h with
    | null => rfl
    | missing h => simp [entries, h]
    | list h => simp [entries, h]

theorem entries_eq_error_iff {doc : Value} {f : DocumentFault} :
    entries doc = .error f ↔ f = .notMapping ∧ doc ≠ .null ∧ (∀ fields, doc ≠ .mapping fields) ∨
      f = .packagesNotList ∧ ∃ fields v, doc = .mapping fields ∧
        lookup "packages" fields = some v ∧ ∀ es, v ≠ .list es := by
  cases doc with
  | mapping fields =>
      simp only [entries]
      split
      · next hnone => simp [hnone]
      · next hlist => simp [hlist]
      · next v hlist hv => simpa [hv, eq_comm] using fun _ => hlist
  | _ => simp [entries, eq_comm]

theorem names_eq_ok_iff {doc : Value} {xs : List Identifier} :
    names doc = .ok xs ↔ IsCatalog doc ∧ List.Forall₂ Makes (pairs doc) xs := by
  have hpairs : ∀ es, HasEntries doc es → pairs doc = es.flatMap entryPairs := by
    intro es hes
    cases hes with
    | null => rfl
    | missing h => simp [pairs, h]
    | list h => simp [pairs, h]
  simp only [names, bind_eq_ok_iff, entries_eq_ok_iff, namesFrom_eq_ok_iff]
  constructor
  · rintro ⟨es, hes, hall, hxs⟩
    exact ⟨⟨es, hes, hall⟩, hpairs es hes ▸ hxs⟩
  · rintro ⟨⟨es, hes, hall⟩, hxs⟩
    exact ⟨es, hes, hall, hpairs es hes ▸ hxs⟩

theorem names_eq_error_iff {doc : Value} {f : DocumentFault} :
    names doc = .error f ↔ HasFault doc f := by
  simp only [names, bind_eq_error_iff, entries_eq_ok_iff, entries_eq_error_iff,
    namesFrom_eq_error_iff, Nat.zero_add]
  constructor
  · rintro ((⟨rfl, hnull, h⟩ | ⟨rfl, fields, v, rfl, h, hlist⟩) | ⟨es, hes, hbad⟩)
    · exact .notMapping hnull h
    · exact .packagesNotList h hlist
    · exact .entry hes hbad
  · intro h
    cases h with
    | notMapping hnull h => exact .inl (.inl ⟨rfl, hnull, h⟩)
    | packagesNotList h hlist => exact .inl (.inr ⟨rfl, _, _, rfl, h, hlist⟩)
    | entry hes hbad => exact .inr ⟨_, hes, hbad⟩

theorem isCatalog_iff {doc : Value} : IsCatalog doc ↔ ∃ xs, names doc = .ok xs := by
  constructor
  · intro h
    cases hxs : names doc with
    | ok xs => exact ⟨xs, rfl⟩
    | error f =>
        obtain ⟨es, hes, hall⟩ := h
        have hentries := entries_eq_ok_iff.mpr hes
        rw [names, hentries] at hxs
        obtain ⟨before, e, after, rfl, -, hfault⟩ := namesFrom_eq_error_iff.mp hxs
        obtain ⟨ys, hys⟩ := isEntry_iff.mp (hall e (by simp))
        have herror := entryNames_eq_error_iff.mpr hfault
        rw [entryNames_eq_ok_iff.mpr hys] at herror
        cases herror
  · rintro ⟨xs, hxs⟩
    exact (names_eq_ok_iff.mp hxs).1

end Document

/-- The text of a fault tells which file it is about. -/
def DocumentFault.NamesPath (f : DocumentFault) (path : Text) : Prop :=
  ∃ before after, f.message path = before ++ path ++ after

namespace Catalog

theorem ofDocument_result_eq_ok_iff {path : Text} {doc : Value} {c : Catalog} :
    (ofDocument path doc).result = .ok c ↔
      ∃ xs, Document.names doc = .ok xs ∧ (ofNames path xs).result = c := by
  unfold ofDocument
  cases Document.names doc with
  | error f => simp [Logged.silent]
  | ok xs => simp

theorem ofDocument_result_eq_error_iff {path : Text} {doc : Value} {f : DocumentFault} :
    (ofDocument path doc).result = .error f ↔ Document.names doc = .error f := by
  unfold ofDocument
  cases Document.names doc with
  | error g => simp [Logged.silent]
  | ok xs => simp

theorem ofNames_result_eq_iff {source : Text} {xs : List Identifier} {c : Catalog} :
    (ofNames source xs).result = c ↔ c.source = source ∧ c.names = xs.eraseDups := by
  rw [← firsts_eq_eraseDups]
  constructor
  · rintro rfl
    exact ⟨rfl, rfl⟩
  · rintro ⟨hsource, hnames⟩
    cases c
    cases hsource
    cases hnames
    rfl

end Catalog

end NameCatalog
