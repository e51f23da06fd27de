import DeskCalculator.Text.Basic

/-!
Hooks: handlers that are called on the occasions of a run, those of higher priority first and those
of equal priority in the order of their registration.
-/

namespace DeskCalculator

inductive Occasion where
  | programStart
  | programEnd
  | onError
  | command
  deriving DecidableEq, Repr

namespace Occasion

def name : Occasion → Text
  | programStart => Text.ofString "program_start"
  | programEnd => Text.ofString "program_end"
  | onError => Text.ofString "on_error"
  | command => Text.ofString "command"

def ofName? (name : Text) : Option Occasion :=
  [programStart, programEnd, onError, command].find? (·.name = name)

end Occasion

structure Registration (α : Type) where
  occasion : Occasion
  priority : Int
  handler : α

/-- The registrations so far, in the order in which their handlers are called. -/
structure Hooks (α : Type) where
  registrations : List (Registration α) := []

namespace Hooks

variable {α : Type}

/-- Puts a registration behind all of the same or a higher priority. -/
def place (r : Registration α) : List (Registration α) → List (Registration α)
  | [] => [r]
  | r' :: rest => if r.priority ≤ r'.priority then r' :: place r rest else r :: r' :: rest

def register (hooks : Hooks α) (r : Registration α) : Hooks α := ⟨place r hooks.registrations⟩

/-- Registers a handler under the name of an occasion; there is nothing to register it for when no
occasion has that name. -/
def register? (hooks : Hooks α) (name : Text) (priority : Int) (handler : α) : Option (Hooks α) :=
  (Occasion.ofName? name).map fun occasion => hooks.register { occasion, priority, handler }

/-- The handlers to call on an occasion, in order. -/
def handlers (hooks : Hooks α) (occasion : Occasion) : List α :=
  (hooks.registrations.filter (·.occasion = occasion)).map (·.handler)

/-- The handlers to call on an occasion given by name; there are none for an unknown name. -/
def handlersNamed (hooks : Hooks α) (name : Text) : List α :=
  ((Occasion.ofName? name).map hooks.handlers).getD []

/-- What is said to someone who registers for an occasion that does not exist. -/
def unknownMessage (name : Text) : Text :=
  Text.ofString "Unknown event '" ++ name ++ Text.ofString "'"

end Hooks

end DeskCalculator
