import NameCatalog.Decimal.Numeral
import NameCatalog.Text.Hex
import NameCatalog.Text.Utf8
import NameCatalog.Yaml.Cursor
import NameCatalog.Yaml.Token

/-!
# Anchors, tags and directives
-/

namespace NameCatalog.Yaml.Property

def endsName (rest : List CodePoint) : Bool :=
  atBlank rest ||
    match rest with
    | c :: _ => (Text.toList "?:,]\x7d%@\x60").contains c
    | [] => true

def name (c : Cursor) : Except Fault (Text × Cursor) :=
  let (word, next) := c.takeWhile isWordChar
  if word = [] ∨ !endsName next.chars then .error .invalid
  else .ok (Text.ofList word, next)

def isUriChar (c : CodePoint) : Bool :=
  c.isAlphanum || (Text.toList "-;/?:@&=+$,_.!~*\x27()[]").contains c

/-- A run of `%XX` escapes: the bytes and what follows. -/
def uriEscapes : Nat → Cursor → Except Fault (List UInt8 × Cursor)
  | 0, c => .ok ([], c)
  | fuel + 1, c =>
    match c.chars with
    | '%' :: rest =>
      match Text.takeHex 2 0 rest with
      | none => .error .invalid
      | some (n, _) => do
        let (bytes, next) ← uriEscapes fuel (c.drop 3)
        return (UInt8.ofNat n :: bytes, next)
    | _ => .ok ([], c)

/-- The characters of a tag, with runs of escapes read as UTF-8. -/
def uriChars : Nat → Cursor → Except Fault (List CodePoint × Cursor)
  | 0, c => .ok ([], c)
  | fuel + 1, c =>
    match c.chars with
    | [] => .ok ([], c)
    | x :: _ =>
      if x = '%' then do
        let (bytes, next) ← uriEscapes (fuel + 1) c
        match Text.Utf8.decode bytes with
        | .error _ => throw .invalid
        | .ok cs =>
          let (more, next) ← uriChars fuel next
          return (cs ++ more, next)
      else if isUriChar x then do
        let (more, next) ← uriChars fuel (c.drop 1)
        return (x :: more, next)
      else .ok ([], c)

/-- A tag or the start of one; it may not be empty. -/
def uri (c : Cursor) : Except Fault (Text × Cursor) := do
  let (cs, next) ← uriChars c.chars.length c
  if next.position = c.position then throw .invalid
  return (Text.ofList cs, next)

/-- A handle begins with an exclamation mark and, unless it is just that, ends with one. -/
def handle (c : Cursor) : Except Fault (Text × Cursor) :=
  match c.chars with
  | '!' :: rest =>
    if rest.head? = some (.char ' ') then .ok ("!", c.drop 1)
    else
      let (word, next) := (c.drop 1).takeWhile isWordChar
      match next.chars with
      | .char '!' :: _ => .ok (Text.ofList (.char '!' :: word ++ [.char '!']), next.drop 1)
      | _ => .error .invalid
  | _ => .error .invalid

/-- Whether the tag at the cursor has a second exclamation mark, which ends its handle. -/
def hasHandle (cs : List CodePoint) : Bool :=
  (cs.takeWhile fun c : CodePoint => !(c == ' ' || isBreak c)).contains '!'

/-- The handle and suffix of the tag at the cursor, which stands on its exclamation mark. -/
def tagParts (c : Cursor) : Except Fault ((Option Text × Text) × Cursor) :=
  let rest := c.chars.drop 1
  if rest.head? = some (.char '<') then do
    let (suffix, next) ← uri (c.drop 2)
    if next.chars.head? ≠ some (.char '>') then throw .invalid
    return ((none, suffix), next.drop 1)
  else if atBlank rest then .ok ((none, "!"), c.drop 1)
  else if hasHandle rest then do
    let (h, next) ← handle c
    let (suffix, next) ← uri next
    return ((some h, suffix), next)
  else do
    let (suffix, next) ← uri (c.drop 1)
    return ((some "!", suffix), next)

def tag (c : Cursor) : Except Fault ((Option Text × Text) × Cursor) := do
  let (parts, next) ← tagParts c
  if !atGap next.chars then throw .invalid
  return (parts, next)

/-- Only spaces and a comment may follow; the cursor ends behind the line. -/
def restOfLine (c : Cursor) : Except Fault Cursor :=
  let c := c.dropWhile (· == .char ' ')
  let c := if c.chars.head? = some (.char '#') then c.dropWhile (!isBreak ·) else c
  if atBreak c.chars then .ok c.lineBreak.2 else .error .invalid

def versionNumber (c : Cursor) : Except Fault (Nat × Cursor) :=
  let (digits, next) := c.takeWhile CodePoint.isDigit
  if digits = [] then .error .invalid
  else if Decimal.Numeral.maxDigits < digits.length then .error (.tooManyDigits digits.length)
  else .ok (digits.foldl (fun n d => n * 10 + (d.toNat - 48)) 0, next)

def version (c : Cursor) : Except Fault (Directive × Cursor) := do
  let (major, next) ← versionNumber (c.dropWhile (· == .char ' '))
  if next.chars.head? ≠ some (.char '.') then throw .invalid
  let (minor, next) ← versionNumber (next.drop 1)
  if !atGap next.chars then throw .invalid
  return (.version major minor, next)

def tagDirective (c : Cursor) : Except Fault (Directive × Cursor) := do
  let (h, next) ← handle (c.dropWhile (· == .char ' '))
  if next.chars.head? ≠ some (.char ' ') then throw .invalid
  let (start, next) ← uri (next.dropWhile (· == .char ' '))
  if !atGap next.chars then throw .invalid
  return (.tag h start, next)

/-- A directive behind its percent sign, up to the end of its line. Unknown ones are ignored. -/
def directive (c : Cursor) : Except Fault (Directive × Cursor) := do
  let (word, next) := c.takeWhile isWordChar
  if word = [] ∨ !atGap next.chars then throw .invalid
  let (d, next) ←
    if word = Text.toList "YAML" then version next
    else if word = Text.toList "TAG" then tagDirective next
    else pure (.other, next.dropWhile (!isBreak ·))
  return (d, ← restOfLine next)

end NameCatalog.Yaml.Property
