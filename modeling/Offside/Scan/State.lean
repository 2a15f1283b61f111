import Offside.Indent.Stack

/-!
# What a scanner remembers

The open levels and two flags. Nothing else carries over from one token to the next.
-/

namespace Offside

structure State where
  stack : Stack
  /-- A line starts here and its indentation has not been taken into account. -/
  atLineStart : Bool
  /-- The end of the text has been given its line break. -/
  finalBreakDone : Bool
deriving DecidableEq, Repr

def State.initial (capacity : Nat) : State := ⟨.ofCapacity capacity, true, false⟩

end Offside
