import NameCatalog.Text.Hex

/-!
# UTF-8

Decoding takes the longest start of a well-formed character; what breaks it off is the fault. A
lead byte decides how many bytes follow and narrows the first of them, which keeps out overlong
forms, surrogates and code points above `U+10FFFF`.
-/

namespace NameCatalog.Text.Utf8

inductive FaultKind where
  | badStart
  | badContinuation
  | truncated
deriving DecidableEq, Repr

/-- The offending bytes start at `position`; for a broken continuation they end before it. -/
structure Fault where
  kind : FaultKind
  position : Nat
  bytes : List UInt8
deriving DecidableEq, Repr

def FaultKind.message : FaultKind → Text
  | .badStart => "invalid start byte"
  | .badContinuation => "invalid continuation byte"
  | .truncated => "unexpected end of data"

def Fault.place (f : Fault) : Text :=
  match f.bytes with
  | [b] =>
    "byte 0x" ++ Text.ofList (hexDigits 2 b.toNat) ++ " in position " ++ toString f.position
  | bs => "bytes in position " ++ toString f.position ++ "-" ++
      toString (f.position + bs.length - 1)

def Fault.message (f : Fault) : Text :=
  "'utf-8' codec can't decode " ++ f.place ++ ": " ++ f.kind.message

/-- What a lead byte above ASCII announces: the number of bytes that follow, and the bounds of
the first of them. -/
structure Lead where
  following : Nat
  low : UInt8
  high : UInt8

def lead? (b : UInt8) : Option Lead :=
  if b < 0xc2 then none
  else if b < 0xe0 then some ⟨1, 0x80, 0xbf⟩
  else if b = 0xe0 then some ⟨2, 0xa0, 0xbf⟩
  else if b = 0xed then some ⟨2, 0x80, 0x9f⟩
  else if b < 0xf0 then some ⟨2, 0x80, 0xbf⟩
  else if b = 0xf0 then some ⟨3, 0x90, 0xbf⟩
  else if b < 0xf4 then some ⟨3, 0x80, 0xbf⟩
  else if b = 0xf4 then some ⟨3, 0x80, 0x8f⟩
  else none

def isTail (b : UInt8) : Bool :=
  decide (0x80 ≤ b) && decide (b ≤ 0xbf)

def codePoint (leading : Nat) (tails : List UInt8) : CodePoint :=
  Char.ofNat (tails.foldl (fun n b => n * 64 + b.toNat % 64) leading)

/-- Decodes from byte number `position` on. -/
def decodeFrom (position : Nat) : List UInt8 → Except Fault (List CodePoint)
  | [] => .ok []
  | b :: rest =>
    if b < 0x80 then (.char (.ofNat b.toNat) :: ·) <$> decodeFrom (position + 1) rest
    else
      match lead? b with
      | none => .error ⟨.badStart, position, [b]⟩
      | some form =>
        match rest with
        | [] => .error ⟨.truncated, position, [b]⟩
        | c :: rest =>
          if c < form.low ∨ form.high < c then .error ⟨.badContinuation, position, [b]⟩
          else if form.following = 1 then
            (codePoint (b.toNat % 32) [c] :: ·) <$> decodeFrom (position + 2) rest
          else
            match rest with
            | [] => .error ⟨.truncated, position, [b, c]⟩
            | d :: rest =>
              if !isTail d then .error ⟨.badContinuation, position, [b, c]⟩
              else if form.following = 2 then
                (codePoint (b.toNat % 16) [c, d] :: ·) <$> decodeFrom (position + 3) rest
              else
                match rest with
                | [] => .error ⟨.truncated, position, [b, c, d]⟩
                | e :: rest =>
                  if !isTail e then .error ⟨.badContinuation, position, [b, c, d]⟩
                  else (codePoint (b.toNat % 8) [c, d, e] :: ·) <$> decodeFrom (position + 4) rest

def decode (bytes : List UInt8) : Except Fault (List CodePoint) :=
  decodeFrom 0 bytes

@[simp] theorem decode_nil : decode [] = .ok [] := rfl

def encodeChar (c : Char) : List UInt8 :=
  let n := c.toNat
  let tail (unit : Nat) := UInt8.ofNat (0x80 + n / unit % 64)
  if n < 0x80 then [UInt8.ofNat n]
  else if n < 0x800 then [UInt8.ofNat (0xc0 + n / 64), tail 1]
  else if n < 0x10000 then [UInt8.ofNat (0xe0 + n / 4096), tail 64, tail 1]
  else [UInt8.ofNat (0xf0 + n / 262144), tail 4096, tail 64, tail 1]

/-- A surrogate stands for the byte that it was decoded from. -/
def encodeCodePoint : CodePoint → List UInt8
  | .char c => encodeChar c
  | .surrogate n => [UInt8.ofNat n]

def encode (cs : List CodePoint) : List UInt8 :=
  cs.flatMap encodeCodePoint

/-- The surrogate that stands for a byte of no character. -/
def surrogateOf (b : UInt8) : CodePoint :=
  .surrogate ⟨0x400 + b.toNat, by have := b.toNat_lt; omega⟩

/-- The character that the bytes begin with, and how many of them it takes. -/
def firstChar? (bytes : List UInt8) : Option (Char × Nat) :=
  [1, 2, 3, 4].findSome? fun n =>
    match decode (bytes.take n) with
    | .ok [.char c] => some (c, n)
    | _ => none

/-- Decodes behind `skipped` bytes that were decoded already. -/
def decodeEscapingFrom : (skipped : Nat) → List UInt8 → List CodePoint
  | _, [] => []
  | skipped + 1, _ :: rest => decodeEscapingFrom skipped rest
  | 0, b :: rest =>
    match firstChar? (b :: rest) with
    | some (c, n) => .char c :: decodeEscapingFrom (n - 1) rest
    | none => surrogateOf b :: decodeEscapingFrom 0 rest

/-- Decodes the bytes of a word that the system hands over; a byte that begins no character becomes
a surrogate, so that no bytes are refused. -/
def decodeEscaping (bytes : List UInt8) : List CodePoint := decodeEscapingFrom 0 bytes

theorem decodeFrom_ascii (position : Nat) {b : UInt8} (h : b < 0x80) (rest : List UInt8) :
    decodeFrom position (b :: rest) =
      (.char (.ofNat b.toNat) :: ·) <$> decodeFrom (position + 1) rest := by
  rw [decodeFrom.eq_def]
  simp [h]

end NameCatalog.Text.Utf8
