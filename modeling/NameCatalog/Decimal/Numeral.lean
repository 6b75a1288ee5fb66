import NameCatalog.Decimal.Binary64
import NameCatalog.Text.Blank
import NameCatalog.Text.DecimalDigit
import NameCatalog.Text.LetterCase

/-!
# Reading numerals

Whole numbers in a given base and decimal fractions. Blanks around a numeral do not count, a sign
may stand in front, and the decimal digits of every script are understood. A whole number in base
ten has at most `maxDigits` digits.
-/

namespace NameCatalog.Decimal

namespace Numeral

/-- The blanks around a numeral. The information separators are none. -/
def isBlank (c : CodePoint) : Bool :=
  Text.isBlank c && !(0x1c ≤ c.toNat && c.toNat ≤ 0x1f)

/-- The text without surrounding blanks, with each decimal digit in its ASCII form. -/
def plain (cs : List CodePoint) : List CodePoint :=
  (((cs.dropWhile isBlank).reverse.dropWhile isBlank).reverse).map fun c =>
    match Text.decimalDigit? c with
    | some d => Nat.digitChar d
    | none => c

def splitSign : List CodePoint → Bool × List CodePoint
  | '-' :: cs => (true, cs)
  | '+' :: cs => (false, cs)
  | cs => (false, cs)

def digitValue? (c : CodePoint) : Option Nat :=
  if c.isDigit then some (c.toNat - 48)
  else if 'a' ≤ c ∧ c ≤ 'z' then some (c.toNat - 87)
  else if 'A' ≤ c ∧ c ≤ 'Z' then some (c.toNat - 55)
  else none

/-- Reads all of the text as digits of the base. -/
def readDigits (base : Nat) : Nat → List CodePoint → Option Nat
  | value, [] => some value
  | value, c :: cs =>
    match digitValue? c with
    | some d => if d < base then readDigits base (value * base + d) cs else none
    | none => none

def radixMark (base : Nat) : Option CodePoint :=
  if base = 2 then some 'b' else if base = 8 then some 'o' else if base = 16 then some 'x' else none

/-- A numeral may repeat the mark of its base after a zero: `0x`, `0o`, `0b`. -/
def dropRadix (base : Nat) : List CodePoint → List CodePoint
  | '0' :: mark :: cs =>
    if some mark.toLower = radixMark base then cs else '0' :: mark :: cs
  | cs => cs

inductive Fault where
  | malformed
  | tooLong (digits : Nat)
deriving DecidableEq, Repr

def maxDigits : Nat := 4300

/-- The whole number that the text spells in the given base. Too many digits are refused even if
something else follows them. -/
def readInt (base : Nat) (cs : List CodePoint) : Except Fault Int :=
  let (negative, body) := splitSign (plain cs)
  let digits := dropRadix base body
  let count := (digits.takeWhile CodePoint.isDigit).length
  if base = 10 ∧ maxDigits < count then .error (.tooLong count)
  else
    match digits with
    | [] => .error .malformed
    | _ =>
      match readDigits base 0 digits with
      | none => .error .malformed
      | some n => .ok (if negative then -(n : Int) else n)

def spanDigits (cs : List CodePoint) : List CodePoint × List CodePoint :=
  (cs.takeWhile CodePoint.isDigit, cs.dropWhile CodePoint.isDigit)

def natOfDigits (ds : List CodePoint) : Nat :=
  ds.foldl (fun n c => n * 10 + (c.toNat - 48)) 0

/-- An exponent runs to the end of the text; none means zero. -/
def readExponent : List CodePoint → Option Int
  | [] => some 0
  | e :: cs =>
    if e = 'e' ∨ e = 'E' then
      let (negative, ds) := splitSign cs
      if ds ≠ [] ∧ ds.all CodePoint.isDigit then
        some (if negative then -(natOfDigits ds : Int) else natOfDigits ds)
      else none
    else none

def readFraction (cs : List CodePoint) : List CodePoint × List CodePoint :=
  match cs with
  | '.' :: rest => spanDigits rest
  | _ => ([], cs)

/-- A decimal numeral without sign: digits with at most one point among them, then an exponent. -/
def readMagnitude (negative : Bool) (cs : List CodePoint) : Option Binary64 :=
  let (whole, rest) := spanDigits cs
  let (fraction, rest) := readFraction rest
  if whole = [] ∧ fraction = [] then none
  else
    (readExponent rest).map fun e =>
      .ofDecimal negative (natOfDigits (whole ++ fraction)) (e - fraction.length)

/-- The number that the text spells; `inf`, `infinity` and `nan` are numbers too. -/
def readReal (cs : List CodePoint) : Option Binary64 :=
  let (negative, body) := splitSign (plain cs)
  let word := Text.ofList (body.map CodePoint.toLower)
  if word = "inf" ∨ word = "infinity" then some (.infinity negative)
  else if word = "nan" then some .nan
  else readMagnitude negative body

end Numeral

end NameCatalog.Decimal
