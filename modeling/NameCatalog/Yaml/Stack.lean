import NameCatalog.Yaml.Document

/-!
# Room for nested collections

Collections are read inside each other, and each takes some of the stack on which they are read.
What a text takes depends on how it is written, and what is left depends on who asks for it; all
that is known is that shallow documents without aliases can always be read.
-/

namespace NameCatalog.Yaml

namespace Node

mutual

/-- How many collections stand in each other. -/
def depth : Node → Nat
  | scalar .. => 0
  | sequence _ _ items => itemsDepth items + 1
  | mapping _ _ entries => entriesDepth entries + 1
  | aliasOf _ => 0

def itemsDepth : List Node → Nat
  | [] => 0
  | n :: rest => max (depth n) (itemsDepth rest)

def entriesDepth : List (Node × Node) → Nat
  | [] => 0
  | (k, v) :: rest => max (max (depth k) (depth v)) (entriesDepth rest)

end

end Node

/-- A stack, told by the texts that do not fit on it. -/
structure Stack where
  overflows : List CodePoint → Bool
  shallow_fits : ∀ cs n, Document.node (Token.ofText cs) = .ok (some n) → n.isTree = true →
    n.depth ≤ 8 → overflows cs = false

namespace Stack

/-- A stack on which every text fits. -/
def ample : Stack := ⟨fun _ => false, fun _ _ _ _ _ => rfl⟩

/-- The least stack: nothing fits on it but what fits on all. -/
def least : Stack where
  overflows cs :=
    match Document.node (Token.ofText cs) with
    | .ok (some n) => !(n.isTree && decide (n.depth ≤ 8))
    | _ => true
  shallow_fits cs n hnode htree hdepth := by simp [hnode, htree, hdepth]

theorem fits_of_least {cs : List CodePoint} (h : least.overflows cs = false) (stack : Stack) :
    stack.overflows cs = false := by
  have hleast : least.overflows cs = match Document.node (Token.ofText cs) with
    | .ok (some n) => !(n.isTree && decide (n.depth ≤ 8))
    | _ => true := rfl
  rw [hleast] at h
  split at h
  · next n hnode =>
      simp only [Bool.not_eq_false', Bool.and_eq_true, decide_eq_true_eq] at h
      exact stack.shallow_fits cs n hnode h.1 h.2
  · cases h

def read (stack : Stack) (cs : List CodePoint) : Except Fault Document :=
  if stack.overflows cs then .error .tooDeep else Yaml.read cs

theorem read_of_fits {stack : Stack} {cs : List CodePoint} (h : stack.overflows cs = false) :
    stack.read cs = Yaml.read cs := if_neg (by simp [h])

end Stack

end NameCatalog.Yaml
