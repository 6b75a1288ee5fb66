import NameCatalog.Text.Basic

/-!
# Reading position

Line ends have been unified before YAML text is read, so the line breaks that remain are the line
feed, the next-line control and the two Unicode separators. A cursor is what is still to be read
together with the place where it begins; columns count characters, byte order marks excepted.
-/

namespace NameCatalog.Yaml

def isBreak (c : CodePoint) : Bool :=
  c == '\n' || c == '\x85' || c == '\u2028' || c == '\u2029'

/-- A break in content: only the Unicode separators are kept as they are. -/
def breakText (c : CodePoint) : CodePoint :=
  if c = '\u2028' ∨ c = '\u2029' then c else '\n'

def isSpace (c : CodePoint) : Bool :=
  c == ' ' || c == '\t'

def atBreak : List CodePoint → Bool
  | [] => true
  | c :: _ => isBreak c

def atGap : List CodePoint → Bool
  | [] => true
  | c :: _ => c == ' ' || isBreak c

def atBlank : List CodePoint → Bool
  | [] => true
  | c :: _ => isSpace c || isBreak c

def isAllowed (c : CodePoint) : Bool :=
  let n := c.toNat
  n == 0x09 || n == 0x0a || n == 0x0d || (0x20 ≤ n && n ≤ 0x7e) || n == 0x85 ||
    (0xa0 ≤ n && n ≤ 0xd7ff) || (0xe000 ≤ n && n ≤ 0xfffd) || 0x10000 ≤ n

/-- The characters of anchors, tag handles and directive names. -/
def isWordChar (c : CodePoint) : Bool :=
  c.isAlphanum || c == '-' || c == '_'

structure Position where
  index : Nat
  line : Nat
  column : Nat
deriving DecidableEq, Repr

namespace Position

def start : Position := ⟨0, 0, 0⟩

def advance (p : Position) (c : CodePoint) : Position :=
  if isBreak c then ⟨p.index + 1, p.line + 1, 0⟩
  else if c = '\ufeff' then ⟨p.index + 1, p.line, p.column⟩
  else ⟨p.index + 1, p.line, p.column + 1⟩

end Position

structure Cursor where
  position : Position
  chars : List CodePoint
deriving DecidableEq, Repr

namespace Cursor

def column (c : Cursor) : Nat := c.position.column

def drop (c : Cursor) : Nat → Cursor
  | 0 => c
  | n + 1 =>
    match c.chars with
    | [] => c
    | x :: rest => drop ⟨c.position.advance x, rest⟩ n

def takeWhile (c : Cursor) (p : CodePoint → Bool) : List CodePoint × Cursor :=
  let taken := c.chars.takeWhile p
  (taken, ⟨taken.foldl Position.advance c.position, c.chars.dropWhile p⟩)

def dropWhile (c : Cursor) (p : CodePoint → Bool) : Cursor :=
  (c.takeWhile p).2

def lineBreak (c : Cursor) : List CodePoint × Cursor :=
  match c.chars with
  | [] => ([], c)
  | x :: rest => if isBreak x then ([breakText x], ⟨c.position.advance x, rest⟩) else ([], c)

end Cursor

/-- Whether three dashes or three dots stand alone, which marks the edge of a document. -/
def atDocumentMark : List CodePoint → Bool
  | a :: b :: c :: rest => (a == '-' || a == '.') && a == b && b == c && atBlank rest
  | _ => false

end NameCatalog.Yaml
