import DeskCalculator.Fault
import DeskCalculator.Host.Hooks
import DeskCalculator.Machine.Signal

/-!
The host: where a run writes, who runs its commands and who is told of its events. Each of them may
refuse with a failure, and whether it does may depend on everything that happened before.
-/

namespace DeskCalculator

inductive Event where
  | programStart (source : Text)
  | programEnd (result : Signal)
  | onError (f : Fault)
  | command (text : Text)
  deriving DecidableEq, Repr

namespace Event

def occasion : Event → Occasion
  | programStart _ => .programStart
  | programEnd _ => .programEnd
  | onError _ => .onError
  | command _ => .command

/-- What an event carries, as text. -/
def shown : Event → Text
  | programStart source => source
  | programEnd result => result.name
  | onError f => f.cause.kind.name ++ Text.ofString ": " ++ f.cause.message
  | command text => text

end Event

/-- What a run does that its host can see. -/
inductive Effect where
  | wrote (t : Text)
  | ran (command : Text)
  | emitted (event : Event) (frames : Nat)
  /-- The handler called `tag` was called, with `depth` values on the stack. -/
  | handled (tag : Text) (event : Event) (depth frames : Nat)
  deriving DecidableEq, Repr

/-- The effects so far, the latest first. -/
abbrev History := List Effect

structure Handler where
  tag : Text
  respond : History → Option Failure

structure Host where
  hooks : Hooks Handler := {}
  write : History → Text → Option Failure := fun _ _ => none
  run : History → Text → Option Failure := fun _ _ => none

end DeskCalculator
