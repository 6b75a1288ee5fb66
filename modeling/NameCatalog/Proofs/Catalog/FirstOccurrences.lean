import Mathlib.Data.List.Nodup
import Mathlib.Data.List.Perm.Basic
import NameCatalog.Catalog.Distinct

/-!
# Laws of first occurrences

What was seen before matters only through its members, so a list can be cut anywhere, and cleaning
the parts first changes nothing. Each element is either kept or left out.
-/

namespace NameCatalog

variable {α : Type} [DecidableEq α]

theorem firstsAfter_congr {s t : List α} (xs : List α) (h : ∀ x, x ∈ s ↔ x ∈ t) :
    firstsAfter s xs = firstsAfter t xs := by
  induction xs generalizing s t with
  | nil => rfl
  | cons x xs ih =>
      have hcons : ∀ y, y ∈ x :: s ↔ y ∈ x :: t := by simp [h]
      simp only [firstsAfter, h x, ih h, ih hcons]

theorem firstsAfter_append (s xs ys : List α) :
    firstsAfter s (xs ++ ys) = firstsAfter s xs ++ firstsAfter (xs ++ s) ys := by
  induction xs generalizing s with
  | nil => rfl
  | cons x xs ih =>
      by_cases hx : x ∈ s
      · have hseen : ∀ y, y ∈ xs ++ s ↔ y ∈ x :: xs ++ s := by
          intro y
          have hy : y = x → y ∈ xs ∨ y ∈ s := fun h => .inr (h ▸ hx)
          simpa using hy
        simp only [List.cons_append, firstsAfter, hx, if_true, ih]
        rw [firstsAfter_congr ys hseen]
        rfl
      · have hseen : ∀ y, y ∈ xs ++ x :: s ↔ y ∈ x :: xs ++ s := by
          simp [or_left_comm]
        simp only [List.cons_append, firstsAfter, hx, if_false, ih]
        rw [firstsAfter_congr ys hseen]
        rfl

/-- What a first cleaning drops would be dropped anyhow. -/
theorem firstsAfter_firstsAfter {s t : List α} (xs : List α) (h : ∀ x ∈ t, x ∈ s) :
    firstsAfter s (firstsAfter t xs) = firstsAfter s xs := by
  induction xs generalizing s t with
  | nil => rfl
  | cons x xs ih =>
      by_cases ht : x ∈ t
      · simp [firstsAfter, ht, h x ht, ih h]
      · have htail : ∀ u : List α, x ∈ u → (∀ y ∈ t, y ∈ u) →
            firstsAfter u (firstsAfter (x :: t) xs) = firstsAfter u xs := by
          intro u hxu hu
          apply ih
          intro y hy
          rcases List.mem_cons.mp hy with rfl | hy
          · exact hxu
          · exact hu y hy
        by_cases hs : x ∈ s
        · simp [firstsAfter, ht, hs, htail s hs h]
        · have hcons := htail (x :: s) List.mem_cons_self
            (fun y hy => List.mem_cons_of_mem x (h y hy))
          simp [firstsAfter, ht, hs, hcons]

theorem firstsAfter_eq_eraseDups (s xs : List α) :
    firstsAfter s xs = (xs.filter (· ∉ s)).eraseDups := by
  induction xs generalizing s with
  | nil => rfl
  | cons x xs ih =>
      by_cases hx : x ∈ s
      · simp [firstsAfter, hx, ih]
      · have hfilter : xs.filter (· ∉ x :: s) =
            (xs.filter (· ∉ s)).filter (fun y => !y == x) := by
          rw [List.filter_filter]
          apply List.filter_congr
          intro y _
          by_cases hy : y = x <;> simp [hy]
        rw [List.filter_cons_of_pos (by simpa using hx), List.eraseDups_cons, ← hfilter]
        simp only [firstsAfter, hx, if_false, ih]

theorem firsts_eq_eraseDups (xs : List α) : firsts xs = xs.eraseDups := by
  rw [firsts, firstsAfter_eq_eraseDups]
  simp

theorem firstsAfter_eq_self {s xs : List α} (hnd : xs.Nodup) (hs : ∀ x ∈ xs, x ∉ s) :
    firstsAfter s xs = xs := by
  induction xs generalizing s with
  | nil => rfl
  | cons x xs ih =>
      obtain ⟨hx, hxs⟩ := List.nodup_cons.mp hnd
      have hseen : ∀ y ∈ xs, y ∉ x :: s := by
        intro y hy hys
        rcases List.mem_cons.mp hys with rfl | hys
        · exact hx hy
        · exact hs y (List.mem_cons_of_mem x hy) hys
      simp [firstsAfter, hs x List.mem_cons_self, ih hxs hseen]

theorem firsts_eq_self {xs : List α} (hnd : xs.Nodup) : firsts xs = xs :=
  firstsAfter_eq_self hnd (by simp)

theorem firsts_eq_self_iff {xs : List α} : firsts xs = xs ↔ xs.Nodup := by
  constructor
  · intro h
    rw [← h]
    exact nodup_firsts xs
  · exact firsts_eq_self

/-- Of different elements only those are left out that were seen before. -/
theorem firstsAfter_eq_filter {xs : List α} (hnd : xs.Nodup) (s : List α) :
    firstsAfter s xs = xs.filter (· ∉ s) := by
  rw [firstsAfter_eq_eraseDups, ← firsts_eq_eraseDups, firsts_eq_self (hnd.filter _)]

@[simp] theorem firsts_nil : firsts ([] : List α) = [] := rfl

theorem firsts_append (xs ys : List α) : firsts (xs ++ ys) = firsts xs ++ firstsAfter xs ys := by
  rw [firsts, firstsAfter_append, List.append_nil, firsts]

/-- Lists may be cleaned before they are put together. -/
theorem firsts_firsts_append (xs ys : List α) :
    firsts (firsts xs ++ firsts ys) = firsts (xs ++ ys) := by
  rw [firsts_append, firsts_append, firsts_eq_self (nodup_firsts xs)]
  congr 1
  calc
    firstsAfter (firsts xs) (firsts ys) = firstsAfter xs (firsts ys) :=
      firstsAfter_congr _ fun _ => mem_firsts
    _ = firstsAfter xs ys := firstsAfter_firstsAfter ys (by simp)

theorem firsts_firsts (xs : List α) : firsts (firsts xs) = firsts xs :=
  firsts_eq_self (nodup_firsts xs)

theorem firsts_append_of_subset {xs ys : List α} (h : ∀ y ∈ ys, y ∈ xs) :
    firsts (xs ++ ys) = firsts xs := by
  have hnone : firstsAfter xs ys = [] := by
    rw [List.eq_nil_iff_forall_not_mem]
    intro y hy
    obtain ⟨hmem, hnew⟩ := mem_firstsAfter.mp hy
    exact hnew (h y hmem)
  rw [firsts_append, hnone, List.append_nil]

/-- A part that brings nothing new may be left out. -/
theorem firsts_append_append_of_subset {xs ys : List α} (h : ∀ y ∈ ys, y ∈ xs) (zs : List α) :
    firsts (xs ++ ys ++ zs) = firsts (xs ++ zs) := by
  have hseen : ∀ x, x ∈ xs ++ ys ↔ x ∈ xs := by
    intro x
    rw [List.mem_append]
    exact or_iff_left_of_imp (h x)
  rw [firsts_append, firsts_append_of_subset h, firsts_append, firstsAfter_congr zs hseen]

theorem firsts_perm {xs ys : List α} (h : xs.Perm ys) : (firsts xs).Perm (firsts ys) := by
  rw [List.perm_ext_iff_of_nodup (nodup_firsts xs) (nodup_firsts ys)]
  intro x
  rw [mem_firsts, mem_firsts]
  exact h.mem_iff

/-- Any number of lists may be cleaned before they are put together. -/
theorem firsts_flatMap_firsts {β : Type} (f : β → List α) (bs : List β) :
    firsts (bs.flatMap fun b => firsts (f b)) = firsts (bs.flatMap f) := by
  induction bs with
  | nil => rfl
  | cons b bs ih =>
      rw [List.flatMap_cons, List.flatMap_cons, ← firsts_firsts_append, firsts_firsts, ih,
        firsts_firsts_append]

/-! ## What is kept and what is left out -/

theorem firstsAfter_append_repeatsAfter_perm (s xs : List α) :
    (firstsAfter s xs ++ repeatsAfter s xs).Perm xs := by
  induction xs generalizing s with
  | nil => exact .refl []
  | cons x xs ih =>
      by_cases hx : x ∈ s
      · simp only [firstsAfter, repeatsAfter, hx, if_true]
        exact List.perm_middle.trans ((ih s).cons x)
      · simp only [firstsAfter, repeatsAfter, hx, if_false, List.cons_append]
        exact (ih (x :: s)).cons x

theorem firsts_append_repeats_perm (xs : List α) : (firsts xs ++ repeats xs).Perm xs :=
  firstsAfter_append_repeatsAfter_perm [] xs

theorem repeatsAfter_sublist (s xs : List α) : (repeatsAfter s xs).Sublist xs := by
  induction xs generalizing s with
  | nil => exact .slnil
  | cons x xs ih =>
      by_cases hx : x ∈ s
      · simp only [repeatsAfter, hx, if_true]
        exact (ih s).cons_cons x
      · simp only [repeatsAfter, hx, if_false]
        exact (ih (x :: s)).cons x

theorem repeats_sublist (xs : List α) : (repeats xs).Sublist xs :=
  repeatsAfter_sublist [] xs

theorem length_firsts_add_length_repeats (xs : List α) :
    (firsts xs).length + (repeats xs).length = xs.length := by
  rw [← List.length_append]
  exact (firsts_append_repeats_perm xs).length_eq

/-- Cleaning in two stages leaves out the same as cleaning at once. -/
theorem repeats_flatMap_perm {β : Type} (f : β → List α) (bs : List β) :
    (bs.flatMap (fun b => repeats (f b)) ++ repeats (bs.flatMap fun b => firsts (f b))).Perm
      (repeats (bs.flatMap f)) := by
  have hparts : (bs.flatMap (fun b => repeats (f b)) ++ bs.flatMap fun b => firsts (f b)).Perm
      (bs.flatMap f) := by
    refine (List.flatMap_append_perm bs _ _).trans (List.Perm.flatMap_left bs ?_)
    intro b _
    exact List.perm_append_comm.trans (firsts_append_repeats_perm (f b))
  -- What is kept is the same both times, so it can be taken away from both sides.
  refine (List.perm_append_right_iff (firsts (bs.flatMap f))).mp ?_
  calc
    bs.flatMap (fun b => repeats (f b)) ++ repeats (bs.flatMap fun b => firsts (f b)) ++
          firsts (bs.flatMap f)
      = bs.flatMap (fun b => repeats (f b)) ++ (repeats (bs.flatMap fun b => firsts (f b)) ++
          firsts (bs.flatMap fun b => firsts (f b))) := by
        rw [firsts_flatMap_firsts, List.append_assoc]
    List.Perm _ (bs.flatMap (fun b => repeats (f b)) ++ bs.flatMap fun b => firsts (f b)) :=
        (List.perm_append_comm.trans (firsts_append_repeats_perm _)).append_left _
    List.Perm _ (bs.flatMap f) := hparts
    List.Perm _ (repeats (bs.flatMap f) ++ firsts (bs.flatMap f)) :=
        (List.perm_append_comm.trans (firsts_append_repeats_perm _)).symm

theorem repeats_eq_nil {xs : List α} (hnd : xs.Nodup) : repeats xs = [] := by
  have hlength := length_firsts_add_length_repeats xs
  rw [firsts_eq_self hnd] at hlength
  exact List.eq_nil_of_length_eq_zero (by omega)

/-- How often an element is left out does not depend on the order. -/
theorem repeats_perm {xs ys : List α} (h : xs.Perm ys) : (repeats xs).Perm (repeats ys) := by
  refine (List.perm_append_left_iff (firsts xs)).mp ?_
  calc
    List.Perm (firsts xs ++ repeats xs) xs := firsts_append_repeats_perm xs
    List.Perm _ ys := h
    List.Perm _ (firsts ys ++ repeats ys) := (firsts_append_repeats_perm ys).symm
    List.Perm _ (firsts xs ++ repeats ys) := (firsts_perm h.symm).append_right _

theorem count_repeats (x : α) (xs : List α) : (repeats xs).count x = xs.count x - 1 := by
  have hcount := (firsts_append_repeats_perm xs).count_eq x
  rw [List.count_append, (nodup_firsts xs).count] at hcount
  by_cases hx : x ∈ xs
  · rw [if_pos (mem_firsts.mpr hx)] at hcount
    omega
  · rw [if_neg (mt mem_firsts.mp hx), List.count_eq_zero_of_not_mem hx] at hcount
    rw [List.count_eq_zero_of_not_mem hx]
    omega

/-- Elements may be told apart by anything that determines them. -/
theorem firsts_map {β : Type} [DecidableEq β] {f : α → β} (hf : Function.Injective f)
    (xs : List α) : firsts (xs.map f) = (firsts xs).map f := by
  have hafter : ∀ s : List α, firstsAfter (s.map f) (xs.map f) = (firstsAfter s xs).map f := by
    induction xs with
    | nil => simp
    | cons x xs ih =>
        intro s
        have hmem : f x ∈ s.map f ↔ x ∈ s := List.mem_map_of_injective hf
        by_cases hx : x ∈ s
        · simp [firstsAfter, hmem, hx, ih]
        · simp only [List.map_cons, firstsAfter, hmem, hx, if_false]
          exact congrArg (f x :: ·) (ih (x :: s))
  exact hafter []

/-! ## Places -/

section Places

variable {β : Type}

/-- The elements at those places of a list that are picked by what stands in front of them. -/
def picked (pick : List β → β → Bool) (xs : List β) : List β :=
  (xs.zipIdx.filter fun p => pick (xs.take p.2) p.1).map Prod.fst

@[simp] theorem picked_nil (pick : List β → β → Bool) : picked pick [] = [] := rfl

theorem picked_cons (pick : List β → β → Bool) (x : β) (xs : List β) :
    picked pick (x :: xs) =
      (if pick [] x then [x] else []) ++ picked (fun before => pick (x :: before)) xs := by
  have hplaces : (x :: xs).zipIdx = (x, 0) :: xs.zipIdx.map fun p => (p.1, p.2 + 1) := by
    rw [List.zipIdx_cons, List.zipIdx_succ]
  have htail : ((xs.zipIdx.map fun p => (p.1, p.2 + 1)).filter
      fun p => pick ((x :: xs).take p.2) p.1).map Prod.fst =
        picked (fun before => pick (x :: before)) xs := by
    rw [List.filter_map, List.map_map]
    rfl
  rw [picked, hplaces, List.filter_cons, List.take_zero]
  by_cases hx : pick [] x
  · rw [if_pos hx, if_pos hx, List.map_cons, htail, List.singleton_append]
  · rw [if_neg hx, if_neg hx, htail, List.nil_append]

end Places

/-- An element is kept at the places where it is neither in front nor seen before, and is left out
at all others. -/
theorem firstsAfter_repeatsAfter_eq_picked (s xs : List α) :
    firstsAfter s xs = picked (fun before x => x ∉ before ++ s) xs ∧
      repeatsAfter s xs = picked (fun before x => x ∈ before ++ s) xs := by
  induction xs generalizing s with
  | nil => exact ⟨rfl, rfl⟩
  | cons x xs ih =>
      rw [picked_cons, picked_cons]
      by_cases hx : x ∈ s
      · have hseen : ∀ (before : List α) (y : α), y ∈ x :: before ++ s ↔ y ∈ before ++ s := by
          intro before y
          have hy : y = x → y ∈ before ++ s := fun h => List.mem_append_right before (h ▸ hx)
          rw [List.cons_append, List.mem_cons, or_iff_right_of_imp hy]
        simp only [firstsAfter, repeatsAfter, hseen, ← ih, List.nil_append]
        simp [hx]
      · have hseen : ∀ (before : List α) (y : α), y ∈ x :: before ++ s ↔ y ∈ before ++ x :: s := by
          intro before y
          rw [List.cons_append, List.perm_middle.mem_iff]
        simp only [firstsAfter, repeatsAfter, hseen, ← ih, List.nil_append]
        simp [hx]

theorem picked_append {β : Type} (pick : List β → β → Bool) (xs ys : List β) :
    picked pick (xs ++ ys) = picked pick xs ++ picked (fun before => pick (xs ++ before)) ys := by
  induction xs generalizing pick with
  | nil => rfl
  | cons x xs ih =>
      rw [List.cons_append, picked_cons, picked_cons, ih, List.append_assoc]
      rfl

/-- Where a list is cut, the part behind has seen the part in front. -/
theorem repeatsAfter_append (s xs ys : List α) :
    repeatsAfter s (xs ++ ys) = repeatsAfter s xs ++ repeatsAfter (xs ++ s) ys := by
  have hseen : (fun (before : List α) (x : α) => decide (x ∈ xs ++ before ++ s)) =
      fun before x => decide (x ∈ before ++ (xs ++ s)) := by
    funext before x
    have hmem : x ∈ xs ++ before ++ s ↔ x ∈ before ++ (xs ++ s) := by
      simp only [List.mem_append]
      tauto
    exact decide_eq_decide.mpr hmem
  rw [(firstsAfter_repeatsAfter_eq_picked s (xs ++ ys)).2, picked_append, hseen,
    ← (firstsAfter_repeatsAfter_eq_picked s xs).2,
    ← (firstsAfter_repeatsAfter_eq_picked (xs ++ s) ys).2]

theorem repeats_append (xs ys : List α) :
    repeats (xs ++ ys) = repeats xs ++ repeatsAfter xs ys := by
  rw [repeats, repeatsAfter_append, List.append_nil, repeats]

/-- Different elements are left out only where they were seen before. -/
theorem repeatsAfter_eq_filter {xs : List α} (hnd : xs.Nodup) (s : List α) :
    repeatsAfter s xs = xs.filter (· ∈ s) := by
  induction xs generalizing s with
  | nil => rfl
  | cons x xs ih =>
      obtain ⟨hx, hxs⟩ := List.nodup_cons.mp hnd
      by_cases hs : x ∈ s
      · rw [repeatsAfter, if_pos hs, ih hxs, List.filter_cons_of_pos (by simpa using hs)]
      · rw [repeatsAfter, if_neg hs, ih hxs, List.filter_cons_of_neg (by simpa using hs)]
        apply List.filter_congr
        intro y hy
        have hne : y ≠ x := ne_of_mem_of_not_mem hy hx
        simp [hne]

theorem firsts_eq_picked (xs : List α) : firsts xs = picked (fun before x => x ∉ before) xs := by
  have hkept := (firstsAfter_repeatsAfter_eq_picked [] xs).1
  simp only [List.append_nil] at hkept
  exact hkept

theorem repeats_eq_picked (xs : List α) : repeats xs = picked (fun before x => x ∈ before) xs := by
  have hdropped := (firstsAfter_repeatsAfter_eq_picked [] xs).2
  simp only [List.append_nil] at hdropped
  exact hdropped

end NameCatalog
