import NameCatalog.Catalog.Basic

/-!
# Catalog documents

A document is null or a mapping. Under `packages` it may hold a list of entries; an entry is a
mapping with a `package`, a dotted text, and perhaps `names`, a list of dotted texts. The first
entry that is anything else decides the fault, and its shape is checked before its texts.
-/

namespace NameCatalog

inductive DocumentFault where
  | notMapping
  | packagesNotList
  | noPackage (entry : Nat)
  | namesNotList (entry : Nat)
  | malformed (m : Malformed Value)
deriving Repr

def DocumentFault.message (path : Text) : DocumentFault → Text
  | .notMapping => "Catalog " ++ path ++ " must be a mapping with a 'packages' list"
  | .packagesNotList => "'packages' in catalog " ++ path ++ " must be a list"
  | .noPackage i => "Entry " ++ toString i ++ " in catalog " ++ path ++ " has no 'package'"
  | .namesNotList i => "'names' of entry " ++ toString i ++ " in catalog " ++ path ++
      " must be a list"
  | .malformed m => m.message

namespace Document

/-- The entries; none when the document is null or has no `packages`. -/
def entries : Value → Except DocumentFault (List Value)
  | .null => .ok []
  | .mapping es =>
    match Value.lookup "packages" es with
    | none => .ok []
    | some (.list items) => .ok items
    | some _ => .error .packagesNotList
  | _ => .error .notMapping

/-- The names an entry declares; none when `names` is missing or null. -/
def declared (i : Nat) (es : List (Value × Value)) : Except DocumentFault (List Value) :=
  match Value.lookup "names" es with
  | none => .ok []
  | some .null => .ok []
  | some (.list items) => .ok items
  | some _ => .error (.namesNotList i)

def identifiersIn (p : Package) : List Value → Except (Malformed Value) (List Identifier)
  | [] => .ok []
  | v :: vs => do
    let x ← Identifier.ofDotted p v
    return x :: (← identifiersIn p vs)

def identifiersOf (package : Value) (names : List Value) :
    Except (Malformed Value) (List Identifier) := do
  identifiersIn (← Package.ofDotted package) names

def entryNames (i : Nat) : Value → Except DocumentFault (List Identifier)
  | .mapping es =>
    match Value.lookup "package" es with
    | none => .error (.noPackage i)
    | some package => do
      let names ← declared i es
      (identifiersOf package names).mapError .malformed
  | _ => .error (.noPackage i)

/-- The identifiers of entries that are numbered from `i` on. -/
def namesFrom (i : Nat) : List Value → Except DocumentFault (List Identifier)
  | [] => .ok []
  | entry :: rest => do
    let here ← entryNames i entry
    return here ++ (← namesFrom (i + 1) rest)

def names (doc : Value) : Except DocumentFault (List Identifier) := do
  namesFrom 0 (← entries doc)

end Document

/-- The catalog of a document that was read from `path`. A fault leaves no notices. -/
def Catalog.ofDocument (path : Text) (doc : Value) : Logged (Except DocumentFault Catalog) :=
  match Document.names doc with
  | .error f => .silent (.error f)
  | .ok names =>
    let made := Catalog.ofNames path names
    ⟨made.notices ++ [.loaded made.result.size path], .ok made.result⟩

end NameCatalog
