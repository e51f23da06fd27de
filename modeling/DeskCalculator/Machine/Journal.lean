import DeskCalculator.Instruction.Action
import DeskCalculator.Numeral.Basic

/-!
The journal of executed instructions. It counts them all and, when it is verbose, keeps an entry for
each. Reports read from it which step failed.
-/

namespace DeskCalculator

/-- An executed instruction: its number, how many frames there were, where the instruction stood in
its text, what it asked for and how many values it left on the stack. -/
structure Entry where
  step : Nat
  frames : Nat
  instruction : Text
  position : Nat
  action : Action
  depth : Nat
  deriving DecidableEq, Repr

/-- The label of an entry has its number in at least six digits. -/
def Entry.label (e : Entry) : Text :=
  Text.ofString "s_" ++ Text.padded 6 '0' (Numeral.decimal e.step)

/-- `next` is the number of the next step, and `entries` has the latest one first. -/
structure Journal where
  verbose : Bool := false
  next : Nat := 0
  last : Option Text := none
  entries : List Entry := []
  deriving DecidableEq, Repr

namespace Journal

def lastStep? (j : Journal) : Option Nat := if j.next = 0 then none else some (j.next - 1)

def record (j : Journal) (frames : Nat) (instruction : Text) (position : Nat) (action : Action)
    (depth : Nat) : Journal :=
  let entry : Entry := { step := j.next, frames, instruction, position, action, depth }
  { j with
    next := j.next + 1
    last := some instruction
    entries := if j.verbose then entry :: j.entries else j.entries }

end Journal

end DeskCalculator
