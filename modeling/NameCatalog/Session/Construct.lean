import NameCatalog.Session.Operand

/-!
# Making packages and identifiers

Segments and dotted names may be handed over as any operand. Segments are gone through one by one,
and an item is never a segment.
-/

namespace NameCatalog

namespace Segments

/-- Segments from a sequence of operands: the first offending one decides. -/
def ofOperands (part : Part) (os : List Operand) : Except ItemFault Segments :=
  match Operand.asValues os with
  | .ok vs => (ofValues part vs).mapError .ofMalformed
  | .error _ =>
    let reason := (os.findSome? (Operand.offence? part)).getD (.emptySegment part)
    .error (.malformed (.of (.several os) reason))

def ofOperand (part : Part) (o : Operand) : Except ItemFault Segments :=
  match o with
  | .value v => (ofValue part v).mapError .ofName
  | _ =>
    match o.elements? with
    | some os => ofOperands part os
    | none => .error (.notIterable o.typeName)

end Segments

namespace Package

def ofDottedOperand (dotted : Operand) : Except ItemFault Package :=
  match dotted with
  | .value v => (ofDotted v).mapError .ofMalformed
  | _ => .error (.malformed (.of dotted (.notText .package)))

def ofOperand (segments : Operand) : Except ItemFault Package :=
  Package.mk <$> Segments.ofOperand .package segments

end Package

namespace Identifier

/-- An identifier from a dotted name, which is checked before the package is. -/
def ofDottedIn (package : Operand) (name : Value) : Except NameFault Identifier := do
  let g ← (Segments.ofDotted .name name).mapError .malformed
  return ⟨← package.asPackage, g⟩

/-- An identifier from segments, which are checked after the package is. -/
def ofSegmentsIn (package : Operand) (segments : Value) : Except NameFault Identifier := do
  ofSegments (← package.asPackage) segments

def ofDottedOperand (package name : Operand) : Except ItemFault Identifier :=
  match name with
  | .value v => (ofDottedIn package v).mapError .ofName
  | _ => .error (.malformed (.of name (.notText .name)))

def ofOperand (package segments : Operand) : Except ItemFault Identifier :=
  match segments with
  | .value v => (ofSegmentsIn package v).mapError .ofName
  | _ => do
    let p ← package.asPackage.mapError .ofName
    return ⟨p, ← Segments.ofOperand .name segments⟩

end Identifier

end NameCatalog
