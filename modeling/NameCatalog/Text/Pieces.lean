import NameCatalog.Text.Basic

/-!
# Cutting text at a separator

`pieces sep` cuts at every occurrence of `sep`, so there is always one piece more than there are
separators; `joinWith sep` puts the pieces back together.
-/

namespace NameCatalog.Text

def pieces (sep : CodePoint) : List CodePoint → List (List CodePoint)
  | [] => [[]]
  | c :: cs =>
    if c = sep then [] :: pieces sep cs
    else
      match pieces sep cs with
      | [] => [[c]]
      | piece :: rest => (c :: piece) :: rest

def joinWith (sep : List CodePoint) : List (List CodePoint) → List CodePoint
  | [] => []
  | [piece] => piece
  | piece :: rest => piece ++ sep ++ joinWith sep rest

@[simp] theorem pieces_nil (sep : CodePoint) : pieces sep [] = [[]] := rfl

theorem pieces_ne_nil (sep : CodePoint) (cs : List CodePoint) : pieces sep cs ≠ [] := by
  cases cs with
  | nil => simp
  | cons c cs =>
      unfold pieces
      split
      · simp
      · split <;> simp

theorem joinWith_cons {sep piece : List CodePoint} {rest : List (List CodePoint)} (h : rest ≠ []) :
    joinWith sep (piece :: rest) = piece ++ sep ++ joinWith sep rest := by
  cases rest with
  | nil => exact absurd rfl h
  | cons _ _ => rfl

/-- Joining undoes cutting. -/
theorem joinWith_pieces (sep : CodePoint) (cs : List CodePoint) :
    joinWith [sep] (pieces sep cs) = cs := by
  induction cs with
  | nil => rfl
  | cons c cs ih =>
      unfold pieces
      split
      · next h => rw [joinWith_cons (pieces_ne_nil sep cs), ih]; simp [h]
      · cases hp : pieces sep cs with
        | nil => exact absurd hp (pieces_ne_nil sep cs)
        | cons piece rest =>
            rw [hp] at ih
            cases rest with
            | nil => simpa [joinWith] using ih
            | cons next rest => simpa [joinWith] using ih

def join (sep : Text) (parts : List Text) : Text :=
  Text.ofList (joinWith sep.toList (parts.map Text.toList))

end NameCatalog.Text
