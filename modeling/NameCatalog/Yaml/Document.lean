import NameCatalog.Yaml.Build
import NameCatalog.Yaml.Lexer
import NameCatalog.Yaml.Realize

/-!
# Documents

A text holds at most one document, perhaps between document marks and with directives in front. The
value of a text without document is null. A document without aliases stands for a value, one with
aliases for a graph of values.
-/

namespace NameCatalog.Yaml

inductive Document where
  | tree (v : Value)
  | graph (g : ValueGraph)
deriving Repr

namespace Document

def standardHandles : List (Text × Text) :=
  [("!", "!"), ("!!", Tag.standardStart)]

/-- Reads the directives in front: the tag handles they define, and the tokens behind them. A
version other than 1 is refused, and so is what is said twice. -/
def directives (versioned : Bool) (known : List (Text × Text)) :
    List Token → Except Fault (List (Text × Text) × List Token)
  | .directive d :: rest =>
    match d with
    | .version major _ =>
      if versioned ∨ major ≠ 1 then .error .invalid else directives true known rest
    | .tag handle start =>
      if (known.lookup handle).isSome then .error .invalid
      else directives versioned ((handle, start) :: known) rest
    | .other => directives versioned known rest
  | ts => .ok (known, ts)

def opening (ts : List Token) : Except Fault (List (Text × Text) × List Token) := do
  let (known, ts) ← directives false [] ts
  match ts with
  | .documentStart :: rest => return (known ++ standardHandles, rest)
  | .fault f :: _ => throw f
  | _ => throw .invalid

/-- Behind the document only end marks may come. -/
def atEnd : List Token → Except Fault Unit
  | .documentEnd :: rest => atEnd rest
  | .streamEnd :: _ => .ok ()
  | ts =>
    match opening ts with
    | .error f => .error f
    | .ok _ => .error .invalid

def root (known : List (Text × Text)) (ts : List Token) : Except Fault (Node × Node.Reader) :=
  Node.read known (4 * ts.length + 8) Node.inBlock ⟨ts, []⟩

def isEmptyBefore (ts : List Token) : Bool :=
  match ts with
  | .directive _ :: _ => true
  | .documentStart :: _ => true
  | .documentEnd :: _ => true
  | .streamEnd :: _ => true
  | _ => false

def isMarked (ts : List Token) : Bool :=
  match ts with
  | .directive _ :: _ => true
  | .documentStart :: _ => true
  | _ => false

def whole (known : List (Text × Text)) (ts : List Token) : Except Fault (Option Node) := do
  let (n, r) ← root known ts
  atEnd r.tokens
  return some n

def node (ts : List Token) : Except Fault (Option Node) := do
  match ts with
  | .streamEnd :: _ => return none
  | _ =>
    if isMarked ts then
      let (known, ts) ← opening ts
      if isEmptyBefore ts then
        atEnd ts
        return some Node.null
      else whole known ts
    else whole standardHandles ts

def ofNode : Option Node → Except Fault Document
  | none => .ok (.tree .null)
  | some n =>
    if n.isTree then ((n.build 0).mapError Prod.snd).map .tree
    else (Graph.ofNode n).values.map .graph

end Document

def read (cs : List CodePoint) : Except Fault Document :=
  if cs.all isAllowed then do Document.ofNode (← Document.node (Token.ofText cs))
  else .error .invalid

end NameCatalog.Yaml
