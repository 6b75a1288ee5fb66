import NameCatalog.Json.Basic
import NameCatalog.Text.Hex
import NameCatalog.Text.Surrogate

/-!
# Writing JSON

The text is ASCII: all other characters, and the controls, are escaped, those beyond the basic
plane as two surrogates and a lone surrogate as itself. Each member and item stands on a line of its
own, and an empty collection stays together.
-/

namespace NameCatalog.Json

def unitEscape (n : Nat) : List CodePoint :=
  '\\' :: 'u' :: Text.hexDigits 4 n

def escapeChar (c : CodePoint) : List CodePoint :=
  if c = '"' then ['\\', '"']
  else if c = '\\' then ['\\', '\\']
  else if c = '\n' then ['\\', 'n']
  else if c = '\r' then ['\\', 'r']
  else if c = '\t' then ['\\', 't']
  else if c = '\x08' then ['\\', 'b']
  else if c = '\x0c' then ['\\', 'f']
  else if 0x20 ≤ c.toNat ∧ c.toNat < 0x7f then [c]
  else
    let n := c.toNat
    if n < 0x10000 then unitEscape n
    else
      unitEscape (0xd800 + (n - 0x10000) / 0x400) ++ unitEscape (0xdc00 + (n - 0x10000) % 0x400)

def quotedChars (cs : List CodePoint) : List CodePoint :=
  .char '"' :: cs.flatMap escapeChar ++ [.char '"']

def quoted (s : Text) : List CodePoint := quotedChars s.toList

def realText : Decimal.Binary64 → Text
  | .nan => "NaN"
  | .infinity negative => if negative then "-Infinity" else "Infinity"
  | x => x.text

def atom : Json → List CodePoint
  | null => Text.toList "null"
  | bool b => Text.toList (if b then "true" else "false")
  | int n => Text.toList (toString n)
  | real x => (realText x).toList
  | text s => quoted s
  | _ => []

def newLine (depth : Nat) : List CodePoint :=
  '\n' :: List.replicate (2 * depth) (.char ' ')

mutual

def indentedChars (depth : Nat) : Json → List CodePoint
  | array [] => Text.toList "[]"
  | array items => .char '[' :: indentedItems (depth + 1) items ++ newLine depth ++ [.char ']']
  | object [] => ['\x7b', '\x7d']
  | object members =>
    .char '\x7b' :: indentedMembers (depth + 1) members ++ newLine depth ++ [.char '\x7d']
  | v => atom v

def indentedItems (depth : Nat) : List Json → List CodePoint
  | [] => []
  | [v] => newLine depth ++ indentedChars depth v
  | v :: rest => newLine depth ++ indentedChars depth v ++ .char ',' :: indentedItems depth rest

def indentedMembers (depth : Nat) : List (Text × Json) → List CodePoint
  | [] => []
  | [(k, v)] => newLine depth ++ quoted k ++ Text.toList ": " ++ indentedChars depth v
  | (k, v) :: rest =>
    newLine depth ++ quoted k ++ Text.toList ": " ++ indentedChars depth v ++
      .char ',' :: indentedMembers depth rest

end

def indented (v : Json) : Text := Text.ofList (indentedChars 0 v)

end NameCatalog.Json
