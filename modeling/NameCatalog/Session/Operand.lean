import NameCatalog.Catalog.Load
import NameCatalog.Session.Item
import NameCatalog.Settings.Load

/-!
# Operands

An operand is anything that is handed over where an item is made: an item, a value, or several of
these. An operation on items fails for one of the causes listed here.
-/

namespace NameCatalog

/-- Anything that a caller may hand over; several operands, with items among them, are a tuple. -/
inductive Operand where
  | item (i : Item)
  | value (v : Value)
  | several (parts : List Operand)
deriving Repr

instance : Coe Value Operand := ⟨.value⟩

namespace Operand

def typeName : Operand → Text
  | item i => i.typeName
  | value v => v.typeName
  | several _ => Shape.tuple.typeName

mutual

def literal : Operand → Text
  | item i => i.literal
  | value v => v.literal
  | several parts => Value.tupleText (literals parts)

def literals : List Operand → List Text
  | [] => []
  | o :: rest => literal o :: literals rest

end

mutual

/-- Whether no whole number in an operand is too long to be written. -/
def isWritable : Operand → Bool
  | item i => i.isWritable
  | value v => v.isWritable
  | several parts => areWritable parts

def areWritable : List Operand → Bool
  | [] => true
  | o :: rest => isWritable o && areWritable rest

end

instance : Writable Operand := ⟨literal, isWritable⟩

def shown : Operand → Text
  | item i => i.shown
  | value v => v.shown
  | o => o.literal

mutual

/-- The value that an operand is when no item is in it, or the type of the first item. -/
def asValue : Operand → Except Text Value
  | item i => .error i.typeName
  | value v => .ok v
  | several parts => Value.tuple <$> asValues parts

def asValues : List Operand → Except Text (List Value)
  | [] => .ok []
  | o :: rest => do
    let v ← asValue o
    return v :: (← asValues rest)

end

/-- Operands as one; it is a value if no item is among them. -/
def ofList (os : List Operand) : Operand :=
  match asValues os with
  | .ok vs => value (.tuple vs)
  | .error _ => several os

def package? : Operand → Option Package
  | item (.package p) => some p
  | _ => none

def asPackage (o : Operand) : Except NameFault Package :=
  match o.package? with
  | some p => .ok p
  | none => .error (.notPackage o.typeName)

def identifier? : Operand → Option Identifier
  | item (.identifier x) => some x
  | _ => none

/-- What an operand is gone through by: a text gives its characters, a catalog its names. -/
def elements? : Operand → Option (List Operand)
  | value (.text s) => some (s.toList.map fun c => value (.text (Text.singleton c)))
  | value v => v.elements?.map (·.map value)
  | item i => i.catalog?.map fun c => c.1.names.map fun x => item (.identifier x)
  | several parts => some parts

mutual

def same : Operand → Operand → Bool
  | item i, item j => i.same j
  | value v, value w => v.equal w
  | several os, several ps => sameAll os ps
  | _, _ => false

def sameAll : List Operand → List Operand → Bool
  | [], [] => true
  | o :: os, p :: ps => same o p && sameAll os ps
  | _, _ => false

end

mutual

def unhashable? : Operand → Option Text
  | item i => i.unhashable?
  | value v => if v.isKey then none else some v.typeName
  | several parts => unhashableIn? parts

def unhashableIn? : List Operand → Option Text
  | [] => none
  | o :: rest => (unhashable? o).or (unhashableIn? rest)

end

def offence? (part : Part) : Operand → Option Reason
  | value v => Segments.offence? part v
  | _ => some (.emptySegment part)

end Operand

inductive ItemFault where
  | malformed (m : Malformed Operand)
  | notPackage (typeName : Text)
  | load (f : LoadFault)
  | settings (f : SettingsFault)
  | style (v : Value)
  | outOfRange
  | hugeIndex
  | notIndex (typeName : Text)
  | cannotAssign (field : Text)
  | cannotDelete (field : Text)
  | unknownField (typeName field : Text)
  | doubleSelf (typeName : Text)
  | noPart (typeName part : Text)
  | notIterable (typeName : Text)
  | notContainer (typeName : Text)
  | unhashable (typeName : Text)
  | sourceNotText (place : Nat) (typeName : Text)
  | sourceNotShown (typeName : Text)
  | noRegister (register : Text)
deriving Repr

namespace ItemFault

def message : ItemFault → Text
  | malformed m => m.message
  | notPackage t => NameFault.message (.notPackage t)
  | load f => f.message
  | settings f => f.message
  | style v => Style.refusal v
  | outOfRange => "list index out of range"
  | hugeIndex => "cannot fit \x27int\x27 into an index-sized integer"
  | notIndex t => "list indices must be integers or slices, not " ++ t
  | cannotAssign field => "cannot assign to field " ++ Text.quoted field
  | cannotDelete field => "cannot delete field " ++ Text.quoted field
  | unknownField t field =>
    t ++ ".__init__() got an unexpected keyword argument \x27" ++ field ++ "\x27"
  | doubleSelf t => t ++ ".__init__() got multiple values for argument \x27self\x27"
  | noPart t part =>
    "\x27" ++ t ++ "\x27 object has no attribute \x27" ++ part ++ "\x27"
  | notIterable t => NameFault.message (.notIterable t)
  | notContainer t => "argument of type \x27" ++ t ++ "\x27 is not iterable"
  | unhashable t => "unhashable type: \x27" ++ t ++ "\x27"
  | sourceNotText place t =>
    "sequence item " ++ toString place ++ ": expected str instance, " ++ t ++ " found"
  | sourceNotShown t => "Object of type " ++ t ++ " is not JSON serializable"
  | noRegister register => Text.quoted register

def ofMalformed (m : Malformed Value) : ItemFault := malformed (m.map .value)

def ofName : NameFault → ItemFault
  | .malformed m => ofMalformed m
  | .notIterable t => notIterable t
  | .notPackage t => notPackage t

end ItemFault

end NameCatalog
