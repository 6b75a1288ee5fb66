/-!
# First occurrences

`firsts` keeps of each element the first occurrence, in order, and `repeats` is what it leaves out.
-/

namespace NameCatalog

variable {α : Type} [DecidableEq α]

def firstsAfter (seen : List α) : List α → List α
  | [] => []
  | x :: xs => if x ∈ seen then firstsAfter seen xs else x :: firstsAfter (x :: seen) xs

def repeatsAfter (seen : List α) : List α → List α
  | [] => []
  | x :: xs => if x ∈ seen then x :: repeatsAfter seen xs else repeatsAfter (x :: seen) xs

def firsts (xs : List α) : List α := firstsAfter [] xs

def repeats (xs : List α) : List α := repeatsAfter [] xs

@[simp] theorem firstsAfter_nil (seen : List α) : firstsAfter seen [] = [] := rfl

@[simp] theorem repeatsAfter_nil (seen : List α) : repeatsAfter seen [] = [] := rfl

theorem mem_firstsAfter {seen xs : List α} {x : α} :
    x ∈ firstsAfter seen xs ↔ x ∈ xs ∧ x ∉ seen := by
  induction xs generalizing seen with
  | nil => simp
  | cons y xs ih =>
      by_cases hy : y ∈ seen
      · simp only [firstsAfter, hy, if_true, ih, List.mem_cons]
        constructor
        · rintro ⟨hx, hs⟩
          exact ⟨.inr hx, hs⟩
        · rintro ⟨rfl | hx, hs⟩
          · exact absurd hy hs
          · exact ⟨hx, hs⟩
      · simp only [firstsAfter, hy, if_false, List.mem_cons, ih, not_or]
        constructor
        · rintro (rfl | ⟨hx, _, hs⟩)
          · exact ⟨.inl rfl, hy⟩
          · exact ⟨.inr hx, hs⟩
        · rintro ⟨rfl | hx, hs⟩
          · exact .inl rfl
          · by_cases hxy : x = y
            · exact .inl hxy
            · exact .inr ⟨hx, hxy, hs⟩

theorem nodup_firstsAfter (seen xs : List α) : (firstsAfter seen xs).Nodup := by
  induction xs generalizing seen with
  | nil => simp
  | cons x xs ih =>
      by_cases hx : x ∈ seen
      · simpa [firstsAfter, hx] using ih seen
      · simp only [firstsAfter, hx, if_false, List.nodup_cons]
        exact ⟨by simp [mem_firstsAfter], ih _⟩

theorem nodup_firsts (xs : List α) : (firsts xs).Nodup := nodup_firstsAfter [] xs

@[simp] theorem mem_firsts {xs : List α} {x : α} : x ∈ firsts xs ↔ x ∈ xs := by
  simp [firsts, mem_firstsAfter]

end NameCatalog
