import NameCatalog.Log.Message
import NameCatalog.Name.Identifier

/-!
# Notices

What is logged on the way to a catalog: each repeated name, and each file read. `Logged` is a
result together with the notices given before it, in order.
-/

namespace NameCatalog

inductive Notice where
  | duplicate (x : Identifier) (source : Text)
  | loaded (count : Nat) (path : Text)
deriving DecidableEq, Repr

def Notice.message : Notice → Message
  | .duplicate x source =>
    ⟨.warning, "lintnames.catalog.schemas",
      "Duplicate name " ++ x.qualifiedName ++ " in " ++ source ++ " (keeping first)"⟩
  | .loaded count path =>
    ⟨.debug, "lintnames.catalog.loader",
      "Loaded " ++ toString count ++ " names from " ++ path⟩

structure Logged (α : Type) where
  notices : List Notice
  result : α
deriving Repr

namespace Logged

def silent {α : Type} (a : α) : Logged α := ⟨[], a⟩

def map {α β : Type} (f : α → β) (x : Logged α) : Logged β := ⟨x.notices, f x.result⟩

/-- Goes on after a success, with the notices of both steps. -/
def andThen {ε α β : Type} (x : Logged (Except ε α)) (f : α → Logged (Except ε β)) :
    Logged (Except ε β) :=
  match x.result with
  | .ok a => ⟨x.notices ++ (f a).notices, (f a).result⟩
  | .error e => ⟨x.notices, .error e⟩

@[simp] theorem andThen_error {ε α β : Type} (ns : List Notice) (e : ε)
    (f : α → Logged (Except ε β)) : andThen ⟨ns, .error e⟩ f = ⟨ns, .error e⟩ := rfl

@[simp] theorem andThen_ok {ε α β : Type} (ns : List Notice) (a : α)
    (f : α → Logged (Except ε β)) :
    andThen ⟨ns, .ok a⟩ f = ⟨ns ++ (f a).notices, (f a).result⟩ := rfl

end Logged

end NameCatalog
