import NameCatalog.Text.Basic

/-!
# Line ends

A line may end in a line feed, a carriage return, or both; reading a file turns each into one line
feed.
-/

namespace NameCatalog.Text

def unifyLineEnds : List CodePoint → List CodePoint
  | [] => []
  | '\r' :: '\n' :: cs => '\n' :: unifyLineEnds cs
  | c :: cs => (if c = '\r' then '\n' else c) :: unifyLineEnds cs

@[simp] theorem unifyLineEnds_nil : unifyLineEnds [] = [] := by
  rw [unifyLineEnds]

theorem unifyLineEnds_cons {c : CodePoint} (h : c ≠ '\r') (cs : List CodePoint) :
    unifyLineEnds (c :: cs) = c :: unifyLineEnds cs := by
  rw [unifyLineEnds.eq_def]
  split
  · next heq => simp at heq
  · next heq => simp at heq; exact absurd heq.1 h
  · next heq =>
      simp only [List.cons.injEq] at heq
      obtain ⟨rfl, rfl⟩ := heq
      simp [h]

end NameCatalog.Text
