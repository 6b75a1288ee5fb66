/-!
# Code points

Text is made of code points, and a code point is a character or a surrogate that stands alone. An
escape can name a surrogate, and undecodable bytes of a command line become surrogates, so that text
can hold them, also a high one directly in front of a low one.
-/

namespace NameCatalog

/-- A character, or the lone surrogate that is `n` behind the first one. -/
inductive CodePoint where
  | char (c : Char)
  | surrogate (n : Fin 0x800)
deriving DecidableEq, Repr, Inhabited

namespace CodePoint

instance : Coe Char CodePoint := ⟨char⟩

/-- The first of the surrogates; the high ones come before the low ones. -/
def firstSurrogate : Nat := 0xd800

def toNat : CodePoint → Nat
  | char c => c.toNat
  | surrogate n => firstSurrogate + n

/-- The code point with the number `n`, if there is one. -/
def ofNat (n : Nat) : CodePoint :=
  if h : firstSurrogate ≤ n ∧ n - firstSurrogate < 0x800 then surrogate ⟨n - firstSurrogate, h.2⟩
  else Char.ofNat n

instance : LE CodePoint := ⟨fun c d => c.toNat ≤ d.toNat⟩

instance (c d : CodePoint) : Decidable (c ≤ d) :=
  inferInstanceAs (Decidable (c.toNat ≤ d.toNat))

def isSurrogate : CodePoint → Bool
  | char _ => false
  | surrogate _ => true

/-- What `test` says of a character; a surrogate fails every test of characters. -/
def passes (test : Char → Bool) : CodePoint → Bool
  | char c => test c
  | surrogate _ => false

def isDigit : CodePoint → Bool := passes Char.isDigit

def isAlphanum : CodePoint → Bool := passes Char.isAlphanum

def isUpper : CodePoint → Bool := passes Char.isUpper

/-- Changes a character; a surrogate stays as it is. -/
def mapChar (f : Char → Char) : CodePoint → CodePoint
  | char c => f c
  | surrogate n => surrogate n

/-- The small letter of an ASCII capital. -/
def toLower : CodePoint → CodePoint := mapChar Char.toLower

/-- The capital of a small ASCII letter. -/
def toUpper : CodePoint → CodePoint := mapChar Char.toUpper

@[simp] theorem toNat_char (c : Char) : (char c).toNat = c.toNat := rfl

@[simp] theorem isDigit_char (c : Char) : (char c).isDigit = c.isDigit := rfl

@[simp] theorem isAlphanum_char (c : Char) : (char c).isAlphanum = c.isAlphanum := rfl

@[simp] theorem isUpper_char (c : Char) : (char c).isUpper = c.isUpper := rfl

@[simp] theorem toLower_char (c : Char) : (char c).toLower = char c.toLower := rfl

@[simp] theorem toUpper_char (c : Char) : (char c).toUpper = char c.toUpper := rfl

/-- No character has the number of a surrogate. -/
theorem char_range (c : Char) :
    c.toNat < 0xd800 ∨ 0xe000 ≤ c.toNat ∧ c.toNat < 0x110000 := by
  have valid : c.toNat.isValidChar := c.valid
  simp only [Nat.isValidChar] at valid
  omega

theorem toNat_lt (c : CodePoint) : c.toNat < 0x110000 := by
  cases c with
  | char c =>
      have := char_range c
      simp only [toNat]
      omega
  | surrogate n =>
      have := n.2
      simp only [toNat, firstSurrogate]
      omega

theorem ofNat_toNat (c : CodePoint) : ofNat c.toNat = c := by
  cases c with
  | char c =>
      have range := char_range c
      rw [ofNat, dif_neg (by simp only [toNat, firstSurrogate]; omega)]
      simp
  | surrogate n =>
      have := n.2
      rw [ofNat, dif_pos (by simp only [toNat, firstSurrogate]; omega)]
      simp [toNat]

theorem toNat_ofNat {n : Nat} (h : n < 0x110000) : (ofNat n).toNat = n := by
  rw [ofNat]
  split
  · next surrogate => simp only [toNat]; omega
  · next char =>
      have valid : n.isValidChar := by
        simp only [Nat.isValidChar, firstSurrogate] at char ⊢
        omega
      rw [toNat_char, Char.ofNat, dif_pos valid]
      rfl

/-- The numbers of the surrogates. -/
theorem isSurrogate_iff {c : CodePoint} :
    c.isSurrogate = true ↔ 0xd800 ≤ c.toNat ∧ c.toNat < 0xe000 := by
  cases c with
  | char c =>
      have := char_range c
      simp only [isSurrogate, toNat, Bool.false_eq_true, false_iff]
      omega
  | surrogate n =>
      have := n.2
      simp only [isSurrogate, toNat, firstSurrogate, true_iff]
      omega

theorem ofNat_of_lt {n : Nat} (h : n < 0xd800) : ofNat n = char (Char.ofNat n) := by
  rw [ofNat, dif_neg (by simp only [firstSurrogate]; omega)]

end CodePoint

end NameCatalog
