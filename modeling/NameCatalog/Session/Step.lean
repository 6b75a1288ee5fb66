import NameCatalog.Session.Access
import NameCatalog.Session.Replace

/-!
# Sessions

A session is a sequence of steps over registers that hold items. A step makes an item and stores
it, or answers a question; a step that fails changes no register, and the session goes on.
-/

namespace NameCatalog.Session

inductive Reference where
  | value (v : Value)
  | register (register : Text)
  | several (parts : List Reference)
deriving Repr

instance : Coe Value Reference := ⟨.value⟩

instance : Coe Text Reference := ⟨.register⟩

instance : Coe (List (Text × Value)) (List (Text × Reference)) :=
  ⟨List.map fun field => (field.1, .value field.2)⟩

inductive Maker where
  | package (dotted : Reference)
  | packageOfSegments (segments : Reference)
  | identifier (package name : Reference)
  | identifierOfSegments (package segments : Reference)
  | catalog (names : List Text) (source : Value)
  | merge (catalogs : List Text)
  | item (catalog : Text) (index : Value)
  | packageOf (identifier : Text)
  | builtin
  | load (path : Value)
  | build (catalogFiles : Value)
  | replace (item : Text) (changes : List (Text × Reference))
deriving Repr

inductive Question where
  | view (item : Text)
  | render (item : Text) (style : Option Value)
  | same (a b : Text)
  | containsItem (catalog item : Text)
  | containsValue (catalog : Text) (v : Value)
  | assign (item field : Text)
  | delete (item field : Text)
deriving Repr

inductive Step where
  | make (register : Text) (maker : Maker)
  | ask (question : Question)
deriving Repr

inductive Answer where
  | item (i : Item)
  | text (s : Text)
  | same (equal : Bool)
  | contains (b : Bool)
deriving Repr

/-- The registers that have been written; the latest entry of a register counts. -/
abbrev Registers := List (Text × Item)

namespace Registers

def get (regs : Registers) (register : Text) : Except ItemFault Item :=
  match List.lookup register regs with
  | some i => .ok i
  | none => .error (.noRegister register)

def getAll (regs : Registers) : List Text → Except ItemFault (List Item)
  | [] => .ok []
  | r :: rest => do
    let i ← get regs r
    return i :: (← getAll regs rest)

mutual

def resolve (regs : Registers) : Reference → Except ItemFault Operand
  | .value v => .ok (.value v)
  | .register r => .item <$> regs.get r
  | .several parts => .ofList <$> resolveAll regs parts

def resolveAll (regs : Registers) : List Reference → Except ItemFault (List Operand)
  | [] => .ok []
  | r :: rest => do
    let o ← resolve regs r
    return o :: (← resolveAll regs rest)

end

def resolveFields (regs : Registers) :
    List (Text × Reference) → Except ItemFault (List (Text × Operand))
  | [] => .ok []
  | (field, r) :: rest => do
    let o ← resolve regs r
    return (field, o) :: (← resolveFields regs rest)

end Registers

def loaded (r : Logged (Except LoadFault Catalog)) : Logged (Except ItemFault Item) :=
  r.map fun r => (r.mapError .load).map .catalog

/-- Goes on with what was found without logging. -/
def thenLogged {α : Type} (r : Except ItemFault α) (f : α → Logged (Except ItemFault Item)) :
    Logged (Except ItemFault Item) :=
  match r with
  | .ok a => f a
  | .error e => .silent (.error e)

def Maker.make (environment : List (Text × Text)) (host : Host) (regs : Registers) :
    Maker → Logged (Except ItemFault Item)
  | .package v => .silent do return .package (← Package.ofDottedOperand (← regs.resolve v))
  | .packageOfSegments v => .silent do return .package (← Package.ofOperand (← regs.resolve v))
  | .identifier p v =>
    .silent do
      let p ← regs.resolve p
      return .identifier (← Identifier.ofDottedOperand p (← regs.resolve v))
  | .identifierOfSegments p v =>
    .silent do
      let p ← regs.resolve p
      return .identifier (← Identifier.ofOperand p (← regs.resolve v))
  | .catalog rs source =>
    thenLogged (regs.getAll rs) fun items => Item.catalogOf source (items.map .item)
  | .merge rs => thenLogged (regs.getAll rs) Item.merge
  | .item r index => .silent do (← regs.get r).itemAt index
  | .packageOf r => .silent do (← regs.get r).packageOf
  | .builtin => .silent (.ok (.catalog Builtin.catalog))
  | .load path => loaded (Catalog.loadValue host path)
  | .build v =>
    match (Settings.load [(Setting.catalogFiles.word, v)] environment host).2 with
    | .ok settings => loaded (Catalog.build host settings.catalogFiles)
    | .error f => .silent (.error (.settings f))
  | .replace r changes =>
    thenLogged (regs.get r) fun i => thenLogged (regs.resolveFields changes) i.replace

def Question.answer (regs : Registers) : Question → Except ItemFault Answer
  | .view r => do return .item (← regs.get r)
  | .render r style => do return .text (← (← regs.get r).render style)
  | .same a b => do
    let a ← regs.get a
    let b ← regs.get b
    a.hashable
    b.hashable
    return .same (a.same b)
  | .containsItem r s => do
    let c ← regs.get r
    return .contains (← c.contains (.item (← regs.get s)))
  | .containsValue r v => do return .contains (← (← regs.get r).contains (.value v))
  | .assign r field => do
    let _ ← regs.get r
    .error (.cannotAssign field)
  | .delete r field => do
    let _ ← regs.get r
    .error (.cannotDelete field)

def Step.run (environment : List (Text × Text)) (host : Host) (regs : Registers) :
    Step → Registers × Logged (Except ItemFault Answer)
  | .make register maker =>
    let made := maker.make environment host regs
    match made.result with
    | .ok i => ((register, i) :: regs, ⟨made.notices, .ok (.item i)⟩)
    | .error f => (regs, ⟨made.notices, .error f⟩)
  | .ask question => (regs, .silent (question.answer regs))

def answers (environment : List (Text × Text)) (host : Host) (regs : Registers) :
    List Step → List (Logged (Except ItemFault Answer))
  | [] => []
  | step :: rest =>
    let (regs, answer) := step.run environment host regs
    answer :: answers environment host regs rest

end NameCatalog.Session
