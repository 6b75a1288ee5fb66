import NameCatalog.Text.Basic
import NameCatalog.Text.Ranges

/-!
# Blank characters

White space in the widest sense: the ASCII controls that move the cursor, the four information
separators, and every Unicode space or line separator. The zero-width space is not blank.
-/

namespace NameCatalog.Text

def blankRanges : List (Nat × Nat) := [
  (0x09, 0x0d), (0x1c, 0x20), (0x85, 0x85), (0xa0, 0xa0), (0x1680, 0x1680), (0x2000, 0x200a),
  (0x2028, 0x2029), (0x202f, 0x202f), (0x205f, 0x205f), (0x3000, 0x3000)]

def isBlank (c : CodePoint) : Bool :=
  inRanges blankRanges c.toNat

def trimBlanks (cs : List CodePoint) : List CodePoint :=
  ((cs.dropWhile isBlank).reverse.dropWhile isBlank).reverse

@[simp] theorem trimBlanks_nil : trimBlanks [] = [] := rfl

def trimBlanksEnd (cs : List CodePoint) : List CodePoint :=
  (cs.reverse.dropWhile isBlank).reverse

end NameCatalog.Text
