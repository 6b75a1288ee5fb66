import NameCatalog.Yaml.Tag
import NameCatalog.Yaml.Token

/-!
# Nodes

The tree that a document's tokens stand for. Each node has a tag; a node may be named by an anchor,
and an alias stands for the node of that name, which begins further up. No two nodes of a document
have the same name.

The grammar is read token by token with one token of lookahead. What the grammar leaves out, for
instance the value of a key, is a null scalar. A fault among the tokens counts as soon as a token
would be looked at in its place.
-/

namespace NameCatalog.Yaml

inductive Node where
  | scalar (anchor : Option Text) (tag : Tag) (text : Text)
  | sequence (anchor : Option Text) (tag : Tag) (items : List Node)
  | mapping (anchor : Option Text) (tag : Tag) (entries : List (Node × Node))
  | aliasOf (name : Text)
deriving Repr, Inhabited

namespace Node

def null : Node := scalar none .null ""

structure Reader where
  tokens : List Token
  names : List Text

namespace Reader

def next (r : Reader) : Reader := { r with tokens := r.tokens.drop 1 }

def refuse {α : Type} (r : Reader) : Except Fault α :=
  match r.tokens with
  | .fault f :: _ => .error f
  | _ => .error .invalid

/-- Looks at the next token, which may turn out to be a fault. -/
def look (r : Reader) : Except Fault Unit :=
  match r.tokens with
  | .fault f :: _ => .error f
  | _ => .ok ()

/-- Gives a name, which may not be taken. -/
def bind (r : Reader) (anchor : Option Text) : Except Fault Reader :=
  match anchor with
  | some a =>
    if a ∈ r.names then .error .invalid else .ok { r with names := a :: r.names }
  | none => .ok r

end Reader

structure Properties where
  anchor : Option Text
  tag : Option (Option Text × Text)

def Properties.isEmpty (p : Properties) : Bool :=
  p.anchor.isNone && p.tag.isNone

/-- An anchor and a tag, in either order, each at most once. -/
def properties (ts : List Token) : Properties × List Token :=
  match ts with
  | .anchor a :: .tag h s :: rest => (⟨some a, some (h, s)⟩, rest)
  | .tag h s :: .anchor a :: rest => (⟨some a, some (h, s)⟩, rest)
  | .anchor a :: rest => (⟨some a, none⟩, rest)
  | .tag h s :: rest => (⟨none, some (h, s)⟩, rest)
  | _ => (⟨none, none⟩, ts)

/-- Behind a single property the second is looked for, so that a fault there comes first. -/
def lookForSecond (p : Properties) (r : Reader) : Except Fault Unit :=
  if p.anchor.isSome && p.tag.isSome then .ok () else r.look

/-- The full name of a given tag; none when there is no tag or it is just an exclamation mark. -/
def tagName (handles : List (Text × Text)) (tag : Option (Option Text × Text)) :
    Except Fault (Option Text) :=
  match tag with
  | none => .ok none
  | some (none, suffix) => .ok (if suffix = "!" then none else some suffix)
  | some (some handle, suffix) =>
    match handles.lookup handle with
    | none => .error .invalid
    | some start => .ok (if start ++ suffix = "!" then none else some (start ++ suffix))

/-- The tag of a scalar. The mark `!` makes a quoted scalar count as plain. -/
def scalarTag (name : Option Text) (marked plain : Bool) (text : Text) : Tag :=
  match name with
  | some n => Tag.ofName n
  | none => if plain || marked then Tag.ofPlain text else .text

def collectionTag (name : Option Text) (fallback : Tag) : Tag :=
  (name.map Tag.ofName).getD fallback

/-- A scalar with the given text; `r` is behind it. -/
def scalarNode (props : Properties) (name : Option Text) (plain : Bool) (text : Text)
    (r : Reader) : Except Fault (Node × Reader) := do
  return (scalar props.anchor (scalarTag name props.tag.isSome plain text) text,
    ← r.bind props.anchor)

/-- Properties alone stand for an empty scalar. -/
def emptyNode (props : Properties) (name : Option Text) (r : Reader) :
    Except Fault (Node × Reader) :=
  if props.isEmpty then r.refuse else scalarNode props name props.tag.isNone "" r

/-- Whether a node without a key, value or item token may follow here. -/
def endsItem (ts : List Token) (closing : List Token) : Bool :=
  match ts with
  | t :: _ => closing.contains t
  | [] => false

/-- What a node may be here: a block collection, and a sequence that is not indented. -/
structure Place where
  block : Bool
  indentless : Bool

def inFlow : Place := ⟨false, false⟩

def inBlock : Place := ⟨true, false⟩

def inMapping : Place := ⟨true, true⟩

mutual

/-- A node, with its properties in front. -/
def read (handles : List (Text × Text)) :
    Nat → Place → Reader → Except Fault (Node × Reader)
  | 0, _, _ => .error .invalid
  | fuel + 1, place, r =>
    match r.tokens with
    | .aliasOf a :: _ => if a ∈ r.names then .ok (aliasOf a, r.next) else .error .invalid
    | ts => do
      let (props, rest) := properties ts
      let r := { r with tokens := rest }
      lookForSecond props r
      let name ← tagName handles props.tag
      r.look
      readContent handles fuel place props name r

def readContent (handles : List (Text × Text)) :
    Nat → Place → Properties → Option Text → Reader → Except Fault (Node × Reader)
  | 0, _, _, _, _ => .error .invalid
  | fuel + 1, place, props, name, r =>
    let sequenceOf (items : List Node) := sequence props.anchor (collectionTag name .sequence) items
    let mappingOf (entries : List (Node × Node)) :=
      mapping props.anchor (collectionTag name .mapping) entries
    match r.tokens with
    | .blockEntry :: _ =>
      if place.indentless then do
        let (items, r) ← readIndentless handles fuel (← r.bind props.anchor)
        return (sequenceOf items, r)
      else emptyNode props name r
    | .scalar s plain :: _ => scalarNode props name plain s r.next
    | .flowSequenceStart :: _ => do
      let (items, r) ← readFlowItems handles fuel true (← r.next.bind props.anchor)
      return (sequenceOf items, r)
    | .flowMappingStart :: _ => do
      let (entries, r) ← readFlowEntries handles fuel true (← r.next.bind props.anchor)
      return (mappingOf entries, r)
    | .blockSequenceStart :: _ =>
      if place.block then do
        let (items, r) ← readBlockItems handles fuel (← r.next.bind props.anchor)
        return (sequenceOf items, r)
      else emptyNode props name r
    | .blockMappingStart :: _ =>
      if place.block then do
        let (entries, r) ← readBlockEntries handles fuel (← r.next.bind props.anchor)
        return (mappingOf entries, r)
      else emptyNode props name r
    | _ => emptyNode props name r

/-- A node, or null in front of one of the closing tokens. -/
def readOrNull (handles : List (Text × Text)) :
    Nat → Place → List Token → Reader → Except Fault (Node × Reader)
  | 0, _, _, _ => .error .invalid
  | fuel + 1, place, closing, r =>
    if endsItem r.tokens closing then .ok (null, r) else read handles fuel place r

def readBlockItems (handles : List (Text × Text)) :
    Nat → Reader → Except Fault (List Node × Reader)
  | 0, _ => .error .invalid
  | fuel + 1, r =>
    match r.tokens with
    | .blockEntry :: _ => do
      let (item, r) ← readOrNull handles fuel inBlock [.blockEntry, .blockEnd] r.next
      let (items, r) ← readBlockItems handles fuel r
      return (item :: items, r)
    | .blockEnd :: _ => .ok ([], r.next)
    | _ => r.refuse

/-- The items of a sequence that is not indented: it ends where no item follows. -/
def readIndentless (handles : List (Text × Text)) :
    Nat → Reader → Except Fault (List Node × Reader)
  | 0, _ => .error .invalid
  | fuel + 1, r =>
    match r.tokens with
    | .blockEntry :: _ => do
      let stops := [.blockEntry, .key, .value, .blockEnd]
      let (item, r) ← readOrNull handles fuel inBlock stops r.next
      let (items, r) ← readIndentless handles fuel r
      return (item :: items, r)
    | _ => .ok ([], r)

/-- The entries of a block mapping, to its end. A key or a value may be left out. -/
def readBlockEntries (handles : List (Text × Text)) :
    Nat → Reader → Except Fault (List (Node × Node) × Reader)
  | 0, _ => .error .invalid
  | fuel + 1, r =>
    match r.tokens with
    | .key :: _ => do
      let (k, r) ← readOrNull handles fuel inMapping [.key, .value, .blockEnd] r.next
      let (v, r) ← readBlockValue handles fuel r
      let (entries, r) ← readBlockEntries handles fuel r
      return ((k, v) :: entries, r)
    | .blockEnd :: _ => .ok ([], r.next)
    | _ => r.refuse

def readBlockValue (handles : List (Text × Text)) :
    Nat → Reader → Except Fault (Node × Reader)
  | 0, _ => .error .invalid
  | fuel + 1, r =>
    match r.tokens with
    | .value :: _ => readOrNull handles fuel inMapping [.key, .value, .blockEnd] r.next
    | _ => .ok (null, r)

/-- The items of a flow sequence, to its end; a comma stands between items, and may follow the
last. A key among them is a mapping of one entry. -/
def readFlowItems (handles : List (Text × Text)) :
    Nat → Bool → Reader → Except Fault (List Node × Reader)
  | 0, _, _ => .error .invalid
  | fuel + 1, first, r =>
    match r.tokens, first with
    | .flowSequenceEnd :: _, _ => .ok ([], r.next)
    | .flowEntry :: .flowSequenceEnd :: _, false => .ok ([], r.next.next)
    | .flowEntry :: _, false => readFlowItem handles fuel r.next
    | _, true => readFlowItem handles fuel r
    | _, false => r.refuse

def readFlowItem (handles : List (Text × Text)) :
    Nat → Reader → Except Fault (List Node × Reader)
  | 0, _ => .error .invalid
  | fuel + 1, r =>
    match r.tokens with
    | .key :: _ => do
      let (entry, r) ← readSingle handles fuel r.next
      let (items, r) ← readFlowItems handles fuel false r
      return (mapping none .mapping [entry] :: items, r)
    | _ => do
      let (item, r) ← read handles fuel inFlow r
      let (items, r) ← readFlowItems handles fuel false r
      return (item :: items, r)

/-- The only entry of a mapping without brackets. -/
def readSingle (handles : List (Text × Text)) :
    Nat → Reader → Except Fault ((Node × Node) × Reader)
  | 0, _ => .error .invalid
  | fuel + 1, r => do
    let (k, r) ← readOrNull handles fuel inFlow [.value, .flowEntry, .flowSequenceEnd] r
    let (v, r) ← readFlowValue handles fuel [.flowEntry, .flowSequenceEnd] r
    return ((k, v), r)

def readFlowValue (handles : List (Text × Text)) :
    Nat → List Token → Reader → Except Fault (Node × Reader)
  | 0, _, _ => .error .invalid
  | fuel + 1, closing, r =>
    match r.tokens with
    | .value :: _ => readOrNull handles fuel inFlow closing r.next
    | _ => .ok (null, r)

/-- The entries of a flow mapping, to its end. An entry without a key mark has no value. -/
def readFlowEntries (handles : List (Text × Text)) :
    Nat → Bool → Reader → Except Fault (List (Node × Node) × Reader)
  | 0, _, _ => .error .invalid
  | fuel + 1, first, r =>
    match r.tokens, first with
    | .flowMappingEnd :: _, _ => .ok ([], r.next)
    | .flowEntry :: .flowMappingEnd :: _, false => .ok ([], r.next.next)
    | .flowEntry :: _, false => readFlowEntry handles fuel r.next
    | _, true => readFlowEntry handles fuel r
    | _, false => r.refuse

def readFlowEntry (handles : List (Text × Text)) :
    Nat → Reader → Except Fault (List (Node × Node) × Reader)
  | 0, _ => .error .invalid
  | fuel + 1, r =>
    match r.tokens with
    | .key :: _ => do
      let (k, r) ← readOrNull handles fuel inFlow [.value, .flowEntry, .flowMappingEnd] r.next
      let (v, r) ← readFlowValue handles fuel [.flowEntry, .flowMappingEnd] r
      let (entries, r) ← readFlowEntries handles fuel false r
      return ((k, v) :: entries, r)
    | _ => do
      let (k, r) ← read handles fuel inFlow r
      let (entries, r) ← readFlowEntries handles fuel false r
      return ((k, null) :: entries, r)

end

end Node

end NameCatalog.Yaml
