import DeskCalculator.Text.Basic

/-!
How the execution of a text ends.
-/

namespace DeskCalculator

/-- How a text ends: with its end, or with a quit that goes on beyond it. -/
inductive Signal where
  | okay
  | quit
  deriving DecidableEq, Repr

def Signal.name : Signal → Text
  | okay => Text.ofString "OKAY"
  | quit => Text.ofString "QUIT"

end DeskCalculator
