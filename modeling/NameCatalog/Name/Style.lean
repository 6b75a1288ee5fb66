import NameCatalog.Name.Segments

/-!
# Styles of rendering

A style says what stands between the segments of a package and behind the package. Nested names are
dotted in every style.
-/

namespace NameCatalog

inductive Style where
  | java
  | internal
deriving DecidableEq, Repr

namespace Style

def all : List Style := [java, internal]

def word : Style → Text
  | java => "java"
  | internal => "internal"

def separator : Style → CodePoint
  | java => dot
  | internal => slash

def ofWord? (s : Text) : Option Style :=
  all.find? (·.word = s)

/-- Only the word of a style stands for it. -/
def ofValue? : Value → Option Style
  | .text s => ofWord? s
  | _ => none

@[simp] theorem ofWord?_word (style : Style) : ofWord? style.word = some style := by
  cases style <;> decide

def refusal (v : Value) : Text := v.literal ++ " is not a valid NameStyle"

end Style

end NameCatalog
