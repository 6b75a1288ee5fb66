import NameCatalog.Files.Path
import NameCatalog.Text.Quoted

/-!
# Looking up files

What a path leads to. A file that is there may not be readable, for a reason that the system
numbers.
-/

namespace NameCatalog

inductive Found where
  | file (bytes : List UInt8)
  | directory
  | missing
  | tooLong
  | unreadable (number : Nat) (reason : Text)
deriving DecidableEq, Repr

/-- What the system says of a path that it fails on. -/
def systemText (number : Nat) (reason path : Text) : Text :=
  "[Errno " ++ toString number ++ "] " ++ reason ++ ": " ++ Text.quoted path

end NameCatalog
