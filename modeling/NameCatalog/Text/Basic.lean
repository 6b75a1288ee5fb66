import NameCatalog.Text.CodePoint

/-!
# Text

Text is a list of code points. A string literal stands for the text of its characters.
-/

namespace NameCatalog

structure Text where
  ofList ::
  toList : List CodePoint
deriving DecidableEq, Repr, Inhabited

namespace Text

def ofString (s : String) : Text := ofList (s.toList.map .char)

instance : Coe String Text := ⟨ofString⟩

instance : Append Text := ⟨fun s t => ofList (s.toList ++ t.toList)⟩

def singleton (c : CodePoint) : Text := ofList [c]

def map (f : CodePoint → CodePoint) (s : Text) : Text := ofList (s.toList.map f)

def length (s : Text) : Nat := s.toList.length

def isEmpty (s : Text) : Bool := s.toList.isEmpty

@[simp] theorem toList_ofList {cs : List CodePoint} : (ofList cs).toList = cs := rfl

@[simp] theorem ofList_toList {s : Text} : ofList s.toList = s := rfl

@[simp] theorem toList_ofString (s : String) : (ofString s).toList = s.toList.map .char := rfl

@[simp] theorem toList_append {s t : Text} : (s ++ t).toList = s.toList ++ t.toList := rfl

@[simp] theorem toList_singleton (c : CodePoint) : (singleton c).toList = [c] := rfl

@[simp] theorem toList_map {f : CodePoint → CodePoint} {s : Text} :
    (s.map f).toList = s.toList.map f := rfl

@[simp] theorem length_toList {s : Text} : s.toList.length = s.length := rfl

@[simp] theorem length_append {s t : Text} : (s ++ t).length = s.length + t.length :=
  List.length_append

@[simp] theorem length_singleton (c : CodePoint) : (singleton c).length = 1 := rfl

@[simp] theorem length_ofString (s : String) : (ofString s).length = s.length := by
  rw [length, toList_ofString, List.length_map, String.length_toList]

theorem toList_empty : toList "" = [] := rfl

theorem toList_injective {s t : Text} (h : s.toList = t.toList) : s = t := by
  cases s
  cases t
  exact congrArg ofList h

theorem toList_inj {s t : Text} : s.toList = t.toList ↔ s = t :=
  ⟨toList_injective, congrArg toList⟩

@[simp] theorem ofString_inj {s t : String} : ofString s = ofString t ↔ s = t := by
  rw [← toList_inj, toList_ofString, toList_ofString,
    List.map_inj_right fun _ _ h => CodePoint.char.inj h, String.toList_inj]

@[simp] theorem toList_eq_nil_iff {s : Text} : s.toList = [] ↔ s = "" := by
  rw [← toList_inj, toList_empty]

theorem ofList_eq_empty_iff {cs : List CodePoint} : ofList cs = "" ↔ cs = [] := by
  rw [← toList_inj, toList_empty]

@[simp] theorem empty_append {s : Text} : "" ++ s = s := rfl

theorem append_assoc {s t u : Text} : s ++ t ++ u = s ++ (t ++ u) :=
  toList_injective (List.append_assoc _ _ _)

end Text

end NameCatalog
