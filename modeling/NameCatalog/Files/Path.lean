import NameCatalog.Text.Pieces

/-!
# Paths

A path is a list of components behind a root that may be absent. Empty components and single dots
mean nothing and are dropped; two dots are kept. Exactly two slashes in front are a root of their
own.
-/

namespace NameCatalog

inductive PathRoot where
  | none
  | single
  | double
deriving DecidableEq, Repr

def PathRoot.text : PathRoot → Text
  | none => ""
  | single => "/"
  | double => "//"

structure Path where
  root : PathRoot
  components : List Text
deriving DecidableEq, Repr

namespace Path

def rootOf : List CodePoint → PathRoot
  | '/' :: '/' :: '/' :: _ => .single
  | '/' :: '/' :: _ => .double
  | '/' :: _ => .single
  | _ => .none

def ofString (s : Text) : Path where
  root := rootOf s.toList
  components :=
    ((Text.pieces '/' s.toList).filter fun piece => !(piece.isEmpty || piece == [.char '.'])).map
      Text.ofList

/-- The path without root and components is the current directory. -/
def toString (p : Path) : Text :=
  if p.root = .none ∧ p.components = [] then "."
  else p.root.text ++ Text.join "/" p.components

end Path

end NameCatalog
