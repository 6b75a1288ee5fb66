import NameCatalog.Yaml.Cursor
import NameCatalog.Yaml.Fault

/-!
# Block scalars

A literal or folded scalar: a header line, then all lines indented at least as deep as the first of
them. The header may give the indentation and say whether the line ends behind the text are kept
(`+`), dropped (`-`) or reduced to one.
-/

namespace NameCatalog.Yaml.Block

structure Header where
  keep : Option Bool
  indentation : Option Nat

/-- The header's marks, in either order, and what follows them. A depth of zero is refused. -/
def header (c : Cursor) : Option (Header × Cursor) :=
  let keepMark (x : CodePoint) : Option Bool :=
    if x = '+' then some true else if x = '-' then some false else none
  let depth (x : CodePoint) : Option Nat := if x.isDigit then some (x.toNat - 48) else none
  match c.chars with
  | [] => some (⟨none, none⟩, c)
  | x :: rest =>
    match keepMark x with
    | some keep =>
      match rest with
      | y :: _ =>
        match depth y with
        | some 0 => none
        | some d => some (⟨some keep, some d⟩, c.drop 2)
        | none => some (⟨some keep, none⟩, c.drop 1)
      | [] => some (⟨some keep, none⟩, c.drop 1)
    | none =>
      match depth x with
      | some 0 => none
      | some d =>
        match rest.head?.bind keepMark with
        | some keep => some (⟨some keep, some d⟩, c.drop 2)
        | none => some (⟨none, some d⟩, c.drop 1)
      | none => some (⟨none, none⟩, c)

/-- The rest of a line that may hold only a comment; the cursor ends behind the line. -/
def restOfLine (c : Cursor) : Option Cursor :=
  let c := c.dropWhile (· == .char ' ')
  let c := if c.chars.head? = some (.char '#') then c.dropWhile (!isBreak ·) else c
  if atBreak c.chars then some c.lineBreak.2 else none

/-- Blank lines before the text: their breaks, and the deepest column that their spaces reach. -/
def leading (deepest : Nat) (p : Position) : List CodePoint → List CodePoint × Nat × Cursor
  | [] => ([], deepest, ⟨p, []⟩)
  | c :: rest =>
    if isBreak c then
      let (breaks, deepest, cursor) := leading deepest (p.advance c) rest
      (breakText c :: breaks, deepest, cursor)
    else if c = ' ' then leading (max deepest (p.advance c).column) (p.advance c) rest
    else ([], deepest, ⟨p, c :: rest⟩)

/-- Line breaks, with the indentation of each next line up to column `indent`. -/
def breaks (indent : Nat) (p : Position) : List CodePoint → List CodePoint × Cursor
  | [] => ([], ⟨p, []⟩)
  | c :: rest =>
    if c = ' ' ∧ p.column < indent then breaks indent (p.advance c) rest
    else if isBreak c then
      let (more, cursor) := breaks indent (p.advance c) rest
      (breakText c :: more, cursor)
    else ([], ⟨p, c :: rest⟩)

/-- The text so far, the last line's own break, the breaks behind it, and what follows. -/
structure Body where
  text : List CodePoint
  last : List CodePoint
  trailing : List CodePoint
  cursor : Cursor

/-- What stands between two lines of the text. Folding joins lines that both begin at the
indentation, and keeps the breaks around lines that are indented further. -/
def between (folding : Bool) (line next last gap : List CodePoint) : List CodePoint :=
  let flush (cs : List CodePoint) := !(cs.head?.any isSpace)
  if folding ∧ last = [.char '\n'] ∧ flush line ∧ flush next then
    if gap = [] then [' '] else []
  else last

/-- Lines that begin at column `indent`, as long as there are any. -/
def lines (folding : Bool) (indent : Nat) : Nat → List CodePoint → Cursor → Body
  | 0, gap, c => ⟨[], [], gap, c⟩
  | fuel + 1, gap, c =>
    if c.column = indent ∧ c.chars ≠ [] then
      let (line, afterLine) := c.takeWhile (!isBreak ·)
      let (last, afterBreak) := afterLine.lineBreak
      let (nextGap, next) := breaks indent afterBreak.position afterBreak.chars
      if next.column = indent ∧ next.chars ≠ [] then
        let body := lines folding indent fuel nextGap next
        let joint := between folding line next.chars last nextGap
        { body with text := gap ++ line ++ joint ++ body.text }
      else ⟨gap ++ line, last, nextGap, next⟩
    else ⟨[], [], gap, c⟩

/-- Reads a block scalar whose marker has been read. `parent` is the column of the collection
around it. -/
def read (folding : Bool) (parent : Int) (c : Cursor) : Except Fault (List CodePoint × Cursor) :=
  match header c with
  | none => .error .invalid
  | some (head, c) =>
    if !atGap c.chars then .error .invalid
    else
      match restOfLine c with
      | none => .error .invalid
      | some c =>
        let least := (max (parent + 1) 1).toNat
        let (gap, indent, c) :=
          match head.indentation with
          | none =>
            let (gap, deepest, c) := leading 0 c.position c.chars
            (gap, max least deepest, c)
          | some d =>
            let indent := least + d - 1
            let (gap, c) := breaks indent c.position c.chars
            (gap, indent, c)
        let body := lines folding indent (c.chars.length + 1) gap c
        let tail := if head.keep = some false then [] else body.last
        let extra := if head.keep = some true then body.trailing else []
        .ok (body.text ++ tail ++ extra, body.cursor)

end NameCatalog.Yaml.Block
