import NameCatalog.Text.Basic

/-!
# Hexadecimal digits
-/

namespace NameCatalog.Text

/-- The last `width` hexadecimal digits of `n`, in lower case. -/
def hexDigits : Nat → Nat → List CodePoint
  | 0, _ => []
  | width + 1, n => hexDigits width (n / 16) ++ [.char (Nat.digitChar (n % 16))]

@[simp] theorem length_hexDigits (width n : Nat) : (hexDigits width n).length = width := by
  induction width generalizing n with
  | zero => rfl
  | succ width ih => simp [hexDigits, ih]

def hexValue? (c : CodePoint) : Option Nat :=
  if '0' ≤ c ∧ c ≤ '9' then some (c.toNat - 48)
  else if 'a' ≤ c ∧ c ≤ 'f' then some (c.toNat - 87)
  else if 'A' ≤ c ∧ c ≤ 'F' then some (c.toNat - 55)
  else none

theorem hexValue?_digitChar :
    ∀ d < 16, hexValue? (.char (Nat.digitChar d)) = some d ∧ (Nat.digitChar d).toNat < 128 := by
  decide

/-- The number that exactly `width` leading digits spell, and what follows them. -/
def takeHex : Nat → Nat → List CodePoint → Option (Nat × List CodePoint)
  | 0, value, cs => some (value, cs)
  | width + 1, value, c :: cs => do takeHex width (value * 16 + (← hexValue? c)) cs
  | _ + 1, _, [] => none

end NameCatalog.Text
