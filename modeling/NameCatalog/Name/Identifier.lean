import NameCatalog.Name.Style

/-!
# Packages and qualified identifiers

A package is a path of segments; a qualified identifier is a declaration in a package, with one
name segment for each level of nesting. Both render in every style.
-/

namespace NameCatalog

structure Package where
  segments : Segments
deriving DecidableEq, Repr

namespace Package

def ofDotted (v : Value) : Except (Malformed Value) Package :=
  Package.mk <$> Segments.ofDotted .package v

def render (p : Package) (style : Style) : Text :=
  p.segments.joined style.separator

def javaName (p : Package) : Text := p.render .java

def literal (p : Package) : Text :=
  "PackagePath(segments=" ++ (Value.tuple p.segments.toValues).literal ++ ")"

end Package

structure Identifier where
  package : Package
  name : Segments
deriving Repr

/-- Names are compared first, since they differ more often than packages do. -/
instance : DecidableEq Identifier := fun x y =>
  if hname : x.name = y.name then
    if hpackage : x.package = y.package then
      isTrue (by cases x; cases y; simp_all)
    else isFalse fun h => hpackage (by rw [h])
  else isFalse fun h => hname (by rw [h])

namespace Identifier

def ofDotted (p : Package) (v : Value) : Except (Malformed Value) Identifier :=
  Identifier.mk p <$> Segments.ofDotted .name v

/-- The name as declarations spell it, dotted when nested. -/
def dottedName (x : Identifier) : Text := x.name.joined dot

def render (x : Identifier) (style : Style) : Text :=
  x.package.render style ++ Text.singleton style.separator ++ x.dottedName

def qualifiedName (x : Identifier) : Text := x.render .java

def internalClassName (x : Identifier) : Text := x.render .internal

/-- The name at a place of use: the innermost declaration's own. -/
def shortName (x : Identifier) : Text := x.name.last

def literal (x : Identifier) : Text :=
  "QualifiedIdentifier(package=" ++ x.package.literal ++ ", name_segments=" ++
    (Value.tuple x.name.toValues).literal ++ ")"

end Identifier

inductive NameFault where
  | malformed (m : Malformed Value)
  | notIterable (typeName : Text)
  | notPackage (typeName : Text)
deriving Repr

def NameFault.message : NameFault → Text
  | .malformed m => m.message
  | .notIterable t => "\x27" ++ t ++ "\x27 object is not iterable"
  | .notPackage t => "package must be a PackagePath, got " ++ t

/-- Segments from any value that can be gone through, text excepted. -/
def Segments.ofValue (part : Part) (v : Value) : Except NameFault Segments :=
  match v with
  | .text _ => .error (.malformed (.of v (.notSequence part)))
  | _ =>
    match v.elements? with
    | some items => (Segments.ofValues part items).mapError .malformed
    | none => .error (.notIterable v.typeName)

def Package.ofSegments (v : Value) : Except NameFault Package :=
  Package.mk <$> Segments.ofValue .package v

def Identifier.ofSegments (p : Package) (v : Value) : Except NameFault Identifier :=
  Identifier.mk p <$> Segments.ofValue .name v

end NameCatalog
