import NameCatalog.Text.Basic

/-!
# Base 64

A lenient reader: characters outside of the alphabet are passed over, and padding that completes a
group of four ends the text.
-/

namespace NameCatalog.Text

def base64Value? (c : CodePoint) : Option Nat :=
  if 'A' ≤ c ∧ c ≤ 'Z' then some (c.toNat - 65)
  else if 'a' ≤ c ∧ c ≤ 'z' then some (c.toNat - 71)
  else if '0' ≤ c ∧ c ≤ '9' then some (c.toNat + 4)
  else if c = '+' then some 62
  else if c = '/' then some 63
  else none

/-- `group` holds the digits of the unfinished group and `pads` the padding just read. Each digit
after the first of a group completes a byte; an unfinished group at the end is an error. -/
def base64From : (group : List Nat) → (pads : Nat) → List CodePoint → Option (List UInt8)
  | group, _, [] => if group = [] then some [] else none
  | group, pads, c :: cs =>
    if c = '=' then
      if 2 ≤ group.length then
        if 4 ≤ group.length + (pads + 1) then some [] else base64From group (pads + 1) cs
      else base64From group pads cs
    else
      match base64Value? c with
      | none => base64From group pads cs
      | some d =>
        match group with
        | [] => base64From [d] 0 cs
        | [a] => (UInt8.ofNat (a * 4 + d / 16) :: ·) <$> base64From [a, d] 0 cs
        | [_, b] => (UInt8.ofNat (b % 16 * 16 + d / 4) :: ·) <$> base64From [0, b, d] 0 cs
        | _ :: _ :: e :: _ => (UInt8.ofNat (e % 4 * 64 + d) :: ·) <$> base64From [] 0 cs

def base64? (cs : List CodePoint) : Option (List UInt8) :=
  base64From [] 0 cs

end NameCatalog.Text
