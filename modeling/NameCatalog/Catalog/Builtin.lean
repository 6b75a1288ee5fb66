import NameCatalog.Catalog.Basic

/-!
# The built-in catalog

The names of the runtime library that every catalog starts from.
-/

namespace NameCatalog.Builtin

def package : Package where
  segments := ⟨["androidx", "compose", "runtime"], by decide, by decide⟩

def composable : Identifier := ⟨package, ⟨["Composable"], by decide, by decide⟩⟩

def compositionLocal : Identifier := ⟨package, ⟨["CompositionLocal"], by decide, by decide⟩⟩

def remember : Identifier := ⟨package, ⟨["remember"], by decide, by decide⟩⟩

def names : List Identifier := [composable, compositionLocal, remember]

def catalog : Catalog := ⟨names, "builtin:runtime", by decide⟩

end NameCatalog.Builtin
