import NameCatalog.Session.Construct

/-!
# Making catalogs and other items anew

A catalog can be made of any items or values, but it can only be shown if all of them are
identifiers. An item is made anew with some of its fields replaced, and checked like a new one.
-/

namespace NameCatalog.Item

/-- Goes through what is to make up a catalog: the identifiers on the way, and the fault that ends
the way, if there is one. What comes a second time is reported by name, which only identifiers
have. -/
def gather (seen : List Operand) : List Operand → List Identifier × Option ItemFault
  | [] => ([], none)
  | o :: rest =>
    match o.unhashable?, o.identifier? with
    | some t, _ => ([], some (.unhashable t))
    | none, some x =>
      let (names, fault) := gather seen rest
      (x :: names, fault)
    | none, none =>
      if seen.any o.same then ([], some (.noPart o.typeName "qualified_name"))
      else gather (o :: seen) rest

/-- The first among the operands that is no identifier makes a catalog impossible to show. -/
def strangerFault (os : List Operand) : Option ItemFault :=
  (os.find? fun o => o.identifier?.isNone).map fun o => .noPart o.typeName "qualified_name"

def catalogOf (source : Value) (os : List Operand) : Logged (Except ItemFault Item) :=
  let (names, fault) := gather [] os
  let made := Catalog.ofNames source.shown names
  match fault.or (strangerFault os) with
  | some f => ⟨made.notices, .error f⟩
  | none => made.map fun c => .ok (ofCatalog c source)

def catalogsOf : List Item → Except ItemFault (List (Catalog × Value))
  | [] => .ok []
  | i :: rest =>
    match i.catalog? with
    | some c => (catalogsOf rest).map (c :: ·)
    | none => .error (.noPart i.typeName "source")

/-- The first source that is no text, counted from `place` on. -/
def sourceFault (place : Nat) : List (Catalog × Value) → Option ItemFault
  | [] => none
  | (_, .text _) :: rest => sourceFault (place + 1) rest
  | (_, source) :: _ => some (.sourceNotText place source.typeName)

/-- Only catalogs whose sources are texts can be merged. -/
def merge (items : List Item) : Logged (Except ItemFault Item) :=
  match catalogsOf items with
  | .error f => .silent (.error f)
  | .ok cs =>
    match sourceFault 0 cs with
    | some f => .silent (.error f)
    | none => (Catalog.merge (cs.map Prod.fst)).map fun c => .ok (.catalog c)

def fields : Item → List Text
  | .package _ => ["segments"]
  | .identifier _ => ["package", "name_segments"]
  | _ => ["names", "source"]

/-- What is wrong with the name of a field: a new item is given itself already. -/
def fieldFault (i : Item) (field : Text) : Option ItemFault :=
  if field = "self" then some (.doubleSelf i.typeName)
  else if i.fields.contains field then none
  else some (.unknownField i.typeName field)

/-- What is given for a field, or what the field holds when nothing is given. -/
def fieldOr (changes : List (Text × Operand)) (field : Text) (held : Operand) : Operand :=
  (changes.lookup field).getD held

def replacePackage (p : Package) (changes : List (Text × Operand)) : Except ItemFault Item :=
  let segments := fieldOr changes "segments" (.value (.tuple p.segments.toValues))
  (Package.ofOperand segments).map .package

def replaceIdentifier (x : Identifier) (changes : List (Text × Operand)) :
    Except ItemFault Item :=
  let package := fieldOr changes "package" (.item (.package x.package))
  let segments := fieldOr changes "name_segments" (.value (.tuple x.name.toValues))
  (Identifier.ofOperand package segments).map .identifier

def nameOperands (c : Catalog) : List Operand :=
  c.names.map fun x => .item (.identifier x)

/-- A catalog whose source is no value can be made, but it cannot be shown. -/
def replaceCatalog (c : Catalog) (source : Value) (changes : List (Text × Operand)) :
    Logged (Except ItemFault Item) :=
  let names := fieldOr changes "names" (.several (nameOperands c))
  let source := fieldOr changes "source" source
  match names.elements?, source.asValue with
  | none, _ => .silent (.error (.notIterable names.typeName))
  | some os, .ok v => catalogOf v os
  | some os, .error t =>
    (catalogOf (.text source.shown) os).andThen fun _ => .silent (.error (.sourceNotShown t))

def replace (i : Item) (changes : List (Text × Operand)) : Logged (Except ItemFault Item) :=
  match changes.findSome? fun change => i.fieldFault change.1 with
  | some f => .silent (.error f)
  | none =>
    match i with
    | .package p => .silent (replacePackage p changes)
    | .identifier x => .silent (replaceIdentifier x changes)
    | .catalog c => replaceCatalog c (.text c.source) changes
    | .mislabelled c source => replaceCatalog c source changes

end NameCatalog.Item
