import NameCatalog.Text.CodePoint

/-!
# Surrogate pairs

A high surrogate and a low one name a character beyond the basic plane between them: each holds ten
bits of its number.
-/

namespace NameCatalog.Text

def isHighSurrogate (n : Nat) : Bool := 0xd800 ≤ n && n < 0xdc00

def isLowSurrogate (n : Nat) : Bool := 0xdc00 ≤ n && n < 0xe000

/-- The character beyond the basic plane that two surrogates stand for. -/
def joinSurrogates (high low : Nat) : CodePoint :=
  .ofNat (0x10000 + (high - 0xd800) * 0x400 + (low - 0xdc00))

end NameCatalog.Text
