import NameCatalog.Text.Hex
import NameCatalog.Text.Printable

/-!
# Quoted text

Text as it is shown in a message: between single quotes, or between double quotes when it holds a
single quote and no double quote. The quote, the backslash and whatever is not printable are
escaped, so quoted text is one printable line from which the text can be read back.
-/

namespace NameCatalog.Text

/-- The shortest numeric escape that holds the code point: two, four or eight digits. -/
def escapeCode (n : Nat) : List CodePoint :=
  if n < 0x100 then '\\' :: 'x' :: hexDigits 2 n
  else if n < 0x10000 then '\\' :: 'u' :: hexDigits 4 n
  else '\\' :: 'U' :: hexDigits 8 n

def escapeChar (quote c : CodePoint) : List CodePoint :=
  if c = quote ∨ c = '\\' then ['\\', c]
  else if c = '\n' then ['\\', 'n']
  else if c = '\r' then ['\\', 'r']
  else if c = '\t' then ['\\', 't']
  else if isPrintable c then [c]
  else escapeCode c.toNat

/-- Double quotes only where they save an escape. -/
def quoteFor (cs : List CodePoint) : CodePoint :=
  if .char '\x27' ∈ cs ∧ .char '"' ∉ cs then '"' else '\x27'

def quotedChars (cs : List CodePoint) : List CodePoint :=
  quoteFor cs :: cs.flatMap (escapeChar (quoteFor cs)) ++ [quoteFor cs]

def quoted (s : Text) : Text :=
  Text.ofList (quotedChars s.toList)

/-- Bytes are quoted like the text of the same codes, with all above ASCII escaped. -/
def escapeByte (quote : CodePoint) (b : UInt8) : List CodePoint :=
  if b.toNat < 0x7f then escapeChar quote (CodePoint.ofNat b.toNat) else escapeCode b.toNat

def quotedBytes (bs : List UInt8) : Text :=
  let quote := quoteFor (bs.map fun b => CodePoint.ofNat b.toNat)
  Text.ofList (.char 'b' :: quote :: bs.flatMap (escapeByte quote) ++ [quote])

end NameCatalog.Text
