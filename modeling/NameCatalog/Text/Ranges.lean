/-!
# Ranges of code points
-/

namespace NameCatalog.Text

/-- Whether `n` lies in one of the closed ranges, which are given in ascending order. -/
def inRanges : List (Nat × Nat) → Nat → Bool
  | [], _ => false
  | (low, high) :: rest, n =>
    if n < low then false else decide (n ≤ high) || inRanges rest n

@[simp] theorem inRanges_nil (n : Nat) : inRanges [] n = false := rfl

end NameCatalog.Text
