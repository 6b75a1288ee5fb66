import NameCatalog.Decimal.Binary64

/-!
# Shortest decimal text of a number

A number is written with the fewest digits that read back as the same number, and of those the
ones nearest to it. `digits` finds them on ever finer decimal grids; `text` lays them out.
-/

namespace NameCatalog.Decimal

/-- `0.d₁d₂… · 10 ^ order`, with `d₁` not zero. -/
structure Digits where
  digits : List Char
  order : Int
deriving DecidableEq, Repr

namespace Shortest

/-- The `k` with `10 ^ (k - 1) ≤ num / den < 10 ^ k`, searched downwards below one. -/
def decimalOrder : Nat → Nat → Nat → Int
  | 0, _, _ => 0
  | fuel + 1, num, den =>
    if den ≤ num then Binary64.digitCount (num / den)
    else decimalOrder fuel (num * 10) den - 1

def scaledByTen (num den : Nat) (k : Int) : Nat × Nat :=
  if 0 ≤ k then (num * Nat.pow 10 k.toNat, den)
  else (num, den * Nat.pow 10 (-k).toNat)

/-- A number and the ends of the interval of all that round to it, in units of `1 / 4` of its last
binary place; `closed` when the ends belong to it. -/
structure Target where
  value : Nat
  low : Nat
  high : Nat
  closed : Bool

def target (mantissa : Nat) (exponent : Int) : Target where
  value := 4 * mantissa
  low := if mantissa = Nat.pow 2 52 ∧ -1074 < exponent then 4 * mantissa - 1 else 4 * mantissa - 2
  high := 4 * mantissa + 2
  closed := mantissa % 2 = 0

/-- Whether the point `d` of the grid with the given step lies in the interval. -/
def Target.holds (t : Target) (unitNum unitDen stepNum stepDen d : Nat) : Bool :=
  let point := d * stepNum * unitDen
  let low := t.low * unitNum * stepDen
  let high := t.high * unitNum * stepDen
  if t.closed then decide (low ≤ point) && decide (point ≤ high)
  else decide (low < point) && decide (point < high)

/-- The better of the two grid points around the value, if one of them lies in the interval. -/
def onGrid (t : Target) (unitNum unitDen stepNum stepDen : Nat) : Option Nat :=
  let num := t.value * unitNum * stepDen
  let den := unitDen * stepNum
  let d := num / den
  let below := t.holds unitNum unitDen stepNum stepDen d
  let above := t.holds unitNum unitDen stepNum stepDen (d + 1)
  if below && above then
    let r := num % den
    some (if 2 * r < den ∨ 2 * r = den ∧ d % 2 = 0 then d else d + 1)
  else if below then some d
  else if above then some (d + 1)
  else none

/-- Tries grids of `count`, `count + 1`, … digits. -/
def search (t : Target) (unitNum unitDen : Nat) (order : Int) : Nat → Nat → Nat × Int
  | 0, _ => (0, 0)
  | fuel + 1, count =>
    let (stepNum, stepDen) := scaledByTen 1 1 (order - count)
    match onGrid t unitNum unitDen stepNum stepDen with
    | some d => (d, order - count)
    | none => search t unitNum unitDen order fuel (count + 1)

def trimZeros (ds : List Char) : List Char :=
  (ds.reverse.dropWhile (· == '0')).reverse

/-- The shortest digits of `mantissa · 2 ^ exponent`, which is not zero. -/
def digits (mantissa : Nat) (exponent : Int) : Digits :=
  let (num, den) := scaled mantissa 1 exponent
  let (unitNum, unitDen) := scaled 1 1 (exponent - 2)
  let order := decimalOrder 400 num den
  let (d, scale) := search (target mantissa exponent) unitNum unitDen order 18 1
  let ds := Nat.toDigits 10 d
  ⟨trimZeros ds, ds.length + scale⟩

/-- Positional notation serves numbers from `10 ^ lowest` up to below `10 ^ highest`. -/
structure Layout where
  lowest : Int
  highest : Int
  exponentWidth : Nat

/-- Numbers are written positionally from `0.0001` up to below `10 ^ 16`, always with a digit after
the point; else with an exponent of at least two digits. -/
def layout : Layout := ⟨-4, 16, 2⟩

def padLeft (width : Nat) (ds : List Char) : List Char :=
  List.replicate (width - ds.length) '0' ++ ds

def exponentText (e : Int) : List Char :=
  'e' :: (if e < 0 then '-' else '+') :: padLeft layout.exponentWidth (Nat.toDigits 10 e.natAbs)

def scientific (d : Digits) : List Char :=
  let e := exponentText (d.order - 1)
  match d.digits with
  | [] => e
  | [x] => x :: e
  | x :: rest => x :: '.' :: rest ++ e

def positional (d : Digits) : List Char :=
  let n := d.digits.length
  if d.order ≤ 0 then '0' :: '.' :: List.replicate (-d.order).toNat '0' ++ d.digits
  else if n ≤ d.order then d.digits ++ List.replicate (d.order.toNat - n) '0' ++ ['.', '0']
  else d.digits.take d.order.toNat ++ '.' :: d.digits.drop d.order.toNat

def magnitude (mantissa : Nat) (exponent : Int) : List Char :=
  if mantissa = 0 then ['0', '.', '0']
  else
    let d := digits mantissa exponent
    if layout.lowest ≤ d.order - 1 ∧ d.order - 1 < layout.highest then positional d
    else scientific d

def withSign (negative : Bool) (cs : List Char) : String :=
  String.ofList (if negative then '-' :: cs else cs)

end Shortest

def Binary64.text : Binary64 → String
  | .nan => "nan"
  | .infinity negative => Shortest.withSign negative "inf".toList
  | .finite negative m e => Shortest.withSign negative (Shortest.magnitude m e)

end NameCatalog.Decimal
