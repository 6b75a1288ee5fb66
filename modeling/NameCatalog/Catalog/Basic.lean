import NameCatalog.Catalog.Distinct
import NameCatalog.Catalog.Notice

/-!
# Catalogs

A catalog is a list of different identifiers with a word on where they come from. Of names given
more than once the first is kept, and every other is reported.
-/

namespace NameCatalog

structure Catalog where
  names : List Identifier
  source : Text
  nodup : names.Nodup
deriving DecidableEq, Repr

namespace Catalog

def memorySource : Text := "<memory>"

def ofNames (source : Text) (names : List Identifier) : Logged Catalog where
  notices := (repeats names).map (.duplicate · source)
  result := ⟨firsts names, source, nodup_firsts names⟩

def size (c : Catalog) : Nat := c.names.length

def qualifiedNames (c : Catalog) : List Text := c.names.map Identifier.qualifiedName

def internalClassNames (c : Catalog) : List Text := c.names.map Identifier.internalClassName

def shortNames (c : Catalog) : List Text := c.names.map Identifier.shortName

def contains (c : Catalog) (x : Identifier) : Bool := decide (x ∈ c.names)

def mergedSource (cs : List Catalog) : Text :=
  let sources := Text.join ", " (cs.map source)
  if sources = "" then "<empty>" else sources

/-- All names in order; the first occurrence wins. -/
def merge (cs : List Catalog) : Logged Catalog :=
  ofNames (mergedSource cs) (cs.flatMap names)

end Catalog

end NameCatalog
