import NameCatalog.Session.Operand

/-!
# Looking at items

Packages and identifiers render in any style; a catalog tells what it contains and hands out its
identifiers one by one.
-/

namespace NameCatalog

namespace Item

def hashable (i : Item) : Except ItemFault Unit :=
  match i.unhashable? with
  | some t => .error (.unhashable t)
  | none => .ok ()

/-- The style that a value stands for; by default names are in Java style. -/
def styleOf : Option Value → Except ItemFault Style
  | none => .ok .java
  | some v =>
    match Style.ofValue? v with
    | some style => .ok style
    | none => .error (.style v)

def render (i : Item) (style : Option Value) : Except ItemFault Text :=
  match i with
  | .package p => do return p.render (← styleOf style)
  | .identifier x => do return x.render (← styleOf style)
  | i => .error (.noPart i.typeName "render")

/-- Indices stay below this, and not below its negative. -/
def indexLimit : Nat := Nat.pow 2 63

/-- An index is a whole number of at most 64 bits, or a truth value. -/
def indexOf (v : Value) : Except ItemFault Int :=
  match v.asInt? with
  | some n => if -(indexLimit : Int) ≤ n ∧ n < indexLimit then .ok n else .error .hugeIndex
  | none => .error (.notIndex v.typeName)

/-- The identifier at a place of a catalog; negative places count from the end. -/
def identifierAt (c : Catalog) (index : Int) : Option Identifier :=
  let place := if index < 0 then index + c.size else index
  if place < 0 then none else c.names[place.toNat]?

def itemAt (i : Item) (index : Value) : Except ItemFault Item :=
  match i.catalog? with
  | some (c, _) => do
    match identifierAt c (← indexOf index) with
    | some x => return .identifier x
    | none => .error .outOfRange
  | none => .error (.notIterable i.typeName)

def packageOf : Item → Except ItemFault Item
  | .identifier x => .ok (.package x.package)
  | i => .error (.noPart i.typeName "package")

/-- Only an identifier can be in a catalog. -/
def contains (i : Item) (o : Operand) : Except ItemFault Bool :=
  match i.catalog? with
  | some (c, _) => .ok (o.identifier?.any c.contains)
  | none => .error (.notContainer i.typeName)

end Item

end NameCatalog
