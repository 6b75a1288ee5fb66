/-!
# Binary floating point

The 64-bit numbers as exact values: a signed whole mantissa below `2 ^ 53` times a power of two.
Arithmetic is exact on ratios and then rounds once to the nearest such value, a tie going to the
even mantissa.
-/

namespace NameCatalog.Decimal

/-- `finite s m e` is `± m · 2 ^ e`, with `m` of 53 bits unless `e = -1074`. -/
inductive Binary64 where
  | nan
  | infinity (negative : Bool)
  | finite (negative : Bool) (mantissa : Nat) (exponent : Int)
deriving DecidableEq, Repr, Inhabited

/-- The whole number nearest to `num / den`, a half going to the even neighbour. -/
def nearest (num den : Nat) : Nat :=
  let q := num / den
  let r := num % den
  if 2 * r < den then q else if den < 2 * r then q + 1 else q + q % 2

def scaled (num den : Nat) (k : Int) : Nat × Nat :=
  if 0 ≤ k then (num * Nat.pow 2 k.toNat, den)
  else (num, den * Nat.pow 2 (-k).toNat)

/-- The exponent `k` with `2 ^ k ≤ num / den < 2 ^ (k + 1)`. -/
def binaryOrder (num den : Nat) : Int :=
  let k : Int := (Nat.log2 num : Int) - Nat.log2 den
  let (a, b) := scaled num den (-k)
  if b ≤ a then k else k - 1

namespace Binary64

def zero (negative : Bool) : Binary64 :=
  finite negative 0 (-1074)

/-- The value nearest to `± num / den`. -/
def ofRatio (negative : Bool) (num den : Nat) : Binary64 :=
  if num = 0 then zero negative
  else
    let e := max (binaryOrder num den - 52) (-1074)
    let (a, b) := scaled num den (-e)
    let m := nearest a b
    let (m, e) := if m = Nat.pow 2 53 then (Nat.pow 2 52, e + 1) else (m, e)
    if 971 < e then infinity negative else finite negative m e

def digitCount (n : Nat) : Nat :=
  (Nat.toDigits 10 n).length

/-- The value nearest to `± digits · 10 ^ exponent`. Exponents far outside the range are decided
by the order of magnitude alone. -/
def ofDecimal (negative : Bool) (digits : Nat) (exponent : Int) : Binary64 :=
  let order := digitCount digits + exponent
  if digits = 0 ∨ order < -330 then zero negative
  else if 310 < order then infinity negative
  else if 0 ≤ exponent then ofRatio negative (digits * Nat.pow 10 exponent.toNat) 1
  else ofRatio negative digits (Nat.pow 10 (-exponent).toNat)

def ofNat (n : Nat) : Binary64 :=
  ofRatio false n 1

def negate : Binary64 → Binary64
  | nan => nan
  | infinity s => infinity !s
  | finite s m e => finite (!s) m e

/-- A whole number and an exponent: the exact value of a finite number. -/
def signed (negative : Bool) (m : Nat) : Int :=
  if negative then -(m : Int) else m

/-- The value nearest to `n · 2 ^ e`, with the given sign when `n` is zero. -/
def ofScaled (zeroSign : Bool) (n : Int) (e : Int) : Binary64 :=
  let (a, b) := scaled n.natAbs 1 e
  ofRatio (if n = 0 then zeroSign else decide (n < 0)) a b

def add : Binary64 → Binary64 → Binary64
  | nan, _ => nan
  | _, nan => nan
  | infinity s, infinity t => if s = t then infinity s else nan
  | infinity s, _ => infinity s
  | _, infinity t => infinity t
  | finite s m e, finite t n f =>
    let low := min e f
    let a := signed s (m * Nat.pow 2 (e - low).toNat)
    let b := signed t (n * Nat.pow 2 (f - low).toNat)
    ofScaled (s && t) (a + b) low

def mul : Binary64 → Binary64 → Binary64
  | nan, _ => nan
  | _, nan => nan
  | infinity s, infinity t => infinity (s != t)
  | infinity s, finite t n _ => if n = 0 then nan else infinity (s != t)
  | finite s m _, infinity t => if m = 0 then nan else infinity (s != t)
  | finite s m e, finite t n f => ofScaled (s != t) (signed (s != t) (m * n)) (e + f)

/-- Whether the number is exactly the whole number `n`. -/
def isInt : Binary64 → Int → Bool
  | finite s m e, n =>
    if 0 ≤ e then decide (signed s (m * Nat.pow 2 e.toNat) = n)
    else decide (signed s m = n * (Nat.pow 2 (-e).toNat : Nat))
  | _, _ => false

/-- Numeric equality: the zeros are equal, and nothing equals not-a-number. -/
def equal : Binary64 → Binary64 → Bool
  | nan, _ => false
  | finite s m e, finite t n f => decide (m = 0 ∧ n = 0 ∨ s = t ∧ m = n ∧ e = f)
  | x, y => decide (x = y)

end Binary64

end NameCatalog.Decimal
