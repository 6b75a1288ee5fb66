import NameCatalog.Catalog.Basic

/-!
# Items

The values of a session are packages, identifiers and catalogs. An item can be compared and
rendered; it never changes. A catalog may carry any value in the place of its source.
-/

namespace NameCatalog

/-- A mislabelled catalog is one whose source is no text; the source that `c` has is how the value
is shown. -/
inductive Item where
  | package (p : Package)
  | identifier (x : Identifier)
  | catalog (c : Catalog)
  | mislabelled (c : Catalog) (source : Value)
deriving Repr

namespace Item

def typeName : Item → Text
  | package _ => "PackagePath"
  | identifier _ => "QualifiedIdentifier"
  | catalog _ => "Catalog"
  | mislabelled .. => "Catalog"

def ofCatalog (c : Catalog) (source : Value) : Item :=
  match source with
  | .text _ => .catalog c
  | v => .mislabelled c v

def catalog? : Item → Option (Catalog × Value)
  | catalog c => some (c, .text c.source)
  | mislabelled c source => some (c, source)
  | _ => none

def same : Item → Item → Bool
  | package p, package q => decide (p = q)
  | identifier x, identifier y => decide (x = y)
  | catalog c, catalog d => decide (c = d)
  | mislabelled c v, mislabelled d w => decide (c.names = d.names) && v.equal w
  | _, _ => false

/-- The type of the part that keeps an item out of sets, if there is one. -/
def unhashable? : Item → Option Text
  | mislabelled _ source => if source.isKey then none else some source.typeName
  | _ => none

/-- Texts can always be written; only the source of a catalog may be anything else. -/
def isWritable : Item → Bool
  | mislabelled _ source => source.isWritable
  | _ => true

def catalogLiteral (c : Catalog) (source : Text) : Text :=
  "Catalog(names=" ++ Value.tupleText (c.names.map Identifier.literal) ++ ", source=" ++ source ++
    ")"

def literal : Item → Text
  | package p => p.literal
  | identifier x => x.literal
  | catalog c => catalogLiteral c (Text.quoted c.source)
  | mislabelled c source => catalogLiteral c source.literal

def shown : Item → Text
  | package p => p.javaName
  | identifier x => x.qualifiedName
  | i => i.literal

end Item

end NameCatalog
