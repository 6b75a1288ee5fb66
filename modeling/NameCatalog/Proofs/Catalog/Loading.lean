import NameCatalog.Catalog.Load
import NameCatalog.Proofs.Catalog.Merging
import NameCatalog.Proofs.Outcome

/-!
# Loading several files

The first file that fails decides for all of them, and where a list of files is cut in two does not
matter: the names behind a merge of the first part are the names of one merge.
-/

namespace NameCatalog

namespace Logged

theorem result_map {α β : Type} (f : α → β) (x : Logged α) : (x.map f).result = f x.result := rfl

theorem result_andThen {ε α β : Type} (x : Logged (Except ε α)) (f : α → Logged (Except ε β)) :
    (x.andThen f).result = x.result >>= fun a => (f a).result := by
  unfold andThen
  cases x.result with
  | error e => rfl
  | ok a => rfl

theorem andThen_of_ok {ε α β : Type} {x : Logged (Except ε α)} {a : α} (h : x.result = .ok a)
    (f : α → Logged (Except ε β)) : x.andThen f = ⟨x.notices ++ (f a).notices, (f a).result⟩ := by
  simp only [andThen, h]

theorem andThen_of_error {ε α β : Type} {x : Logged (Except ε α)} {e : ε}
    (h : x.result = .error e) (f : α → Logged (Except ε β)) :
    x.andThen f = ⟨x.notices, .error e⟩ := by
  simp only [andThen, h]

end Logged

namespace Catalog

theorem result_load_of_missing {host : Host} {p : Path} (h : host.found p = .missing) :
    (load host p).result = .error (.missing p.toString) := by
  rw [load, h]
  rfl

theorem result_loadAll {α : Type} (load : α → Logged (Except LoadFault Catalog)) (xs : List α) :
    (loadAll load xs).result = xs.mapM fun x => (load x).result := by
  induction xs with
  | nil => rfl
  | cons x xs ih =>
      rw [loadAll, Logged.result_andThen, List.mapM_cons]
      simp only [Logged.result_map, ih, bind_pure_comp]
      rfl

section LoadAll

variable {α : Type} {load : α → Logged (Except LoadFault Catalog)}

theorem loadAll_of_ok {xs : List α} {cs : List Catalog}
    (h : (xs.map fun x => (load x).result) = cs.map .ok) :
    loadAll load xs = ⟨xs.flatMap fun x => (load x).notices, .ok cs⟩ := by
  induction xs generalizing cs with
  | nil =>
      obtain rfl : cs = [] := List.map_eq_nil_iff.mp h.symm
      rfl
  | cons x xs ih =>
      cases cs with
      | nil => cases h
      | cons c cs =>
          obtain ⟨hx, hxs⟩ := List.cons.inj h
          rw [loadAll, ih hxs, Logged.andThen_of_ok hx]
          rfl

/-- The first file that cannot be loaded ends the reading, whatever stands behind it. -/
theorem loadAll_of_first_error {before : List α} {x : α} {f : LoadFault}
    (hbefore : ∀ y ∈ before, ∃ c, (load y).result = .ok c) (hx : (load x).result = .error f)
    (after : List α) :
    loadAll load (before ++ x :: after) =
      ⟨(before.flatMap fun y => (load y).notices) ++ (load x).notices, .error f⟩ := by
  induction before with
  | nil =>
      rw [List.nil_append, loadAll, Logged.andThen_of_error hx, List.flatMap_nil,
        List.nil_append]
  | cons y before ih =>
      obtain ⟨⟨c, hc⟩, hrest⟩ := List.forall_mem_cons.mp hbefore
      rw [List.cons_append, loadAll, ih hrest, Logged.andThen_of_ok hc, List.flatMap_cons,
        List.append_assoc]
      rfl

end LoadAll

theorem build_of_ok {host : Host} {paths : List Path} {cs : List Catalog}
    (h : (paths.map fun p => (load host p).result) = cs.map .ok) :
    build host paths =
      ⟨(paths.flatMap fun p => (load host p).notices) ++ (merge (Builtin.catalog :: cs)).notices,
        .ok (merge (Builtin.catalog :: cs)).result⟩ := by
  rw [build, loadAll_of_ok h]
  rfl

theorem result_build (host : Host) (paths : List Path) :
    (build host paths).result =
      (paths.mapM fun p => (load host p).result).map
        fun cs => (merge (Builtin.catalog :: cs)).result := by
  rw [build, Logged.result_andThen, result_loadAll]
  rfl

/-- What was merged already stands for the catalogs it was merged from. -/
theorem names_merge_cons_merge (cs ds : List Catalog) :
    (merge ((merge cs).result :: ds)).result.names = (merge (cs ++ ds)).result.names := by
  have hfirst : firsts (firsts (cs.flatMap names) ++ ds.flatMap names) =
      firsts (cs.flatMap names ++ ds.flatMap names) := by
    rw [← firsts_firsts_append, firsts_firsts, firsts_firsts_append]
  rw [names_merge, names_merge, List.flatMap_cons, names_merge, hfirst, List.flatMap_append]

end Catalog

end NameCatalog
