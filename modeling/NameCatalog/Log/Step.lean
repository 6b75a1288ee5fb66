import NameCatalog.Log.State

/-!
# A log in use

A process sets its log up and writes messages to it, in any order and any number of times. The
answer to a step tells the state that it leaves, the fault of a set-up that failed, and the lines
that were written.
-/

namespace NameCatalog.LogState

inductive Step where
  | setUp (level : Option Value)
  | write (m : Message)

structure Answer where
  state : LogState
  fault? : Option LevelFault
  lines : List Line
deriving DecidableEq, Repr

/-- One step; a set-up without a level takes the default. -/
def take (s : LogState) : Step → Answer
  | .setUp level =>
    let (state, fault?) := s.setup (level.getD defaultLevel)
    ⟨state, fault?, []⟩
  | .write m => ⟨s, none, s.write m⟩

def answers (s : LogState) : List Step → List Answer
  | [] => []
  | x :: xs => s.take x :: answers (s.take x).state xs

@[simp] theorem answers_nil (s : LogState) : s.answers [] = [] := rfl

@[simp] theorem answers_cons (s : LogState) (x : Step) (xs : List Step) :
    s.answers (x :: xs) = s.take x :: (s.take x).state.answers xs := rfl

end NameCatalog.LogState
