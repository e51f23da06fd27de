import DeskCalculator.Host.Basic
import DeskCalculator.Instruction.Perform
import DeskCalculator.Machine.Frame
import DeskCalculator.Machine.Journal

/-!
The machine that executes programs, one instruction a step. An activity of the machine keeps what it
has done when it fails.
-/

namespace DeskCalculator

/-- The state of a machine; its frames have the innermost first. -/
structure Machine where
  store : Store := {}
  overrides : Overrides := {}
  journal : Journal := {}
  history : History := []
  frames : List Frame := []
  deriving DecidableEq, Repr

abbrev Activity := EStateM Failure Machine

namespace Machine

/-- A calculation on the store of the machine. -/
def onStore {α : Type} (c : Calculation α) : Activity α := fun m =>
  match c m.store with
  | .ok a store => .ok a { m with store }
  | .error failure store => .error failure { m with store }

/-- Ascribes the fault of an activity to an instruction, unless it is ascribed already. -/
def ascribing {α : Type} (instruction : Text) (x : Activity α) : Activity α := fun m =>
  match x m with
  | .ok a m => .ok a m
  | .error failure m => .error (failure.ascribe instruction) m

def update (f : Machine → Machine) : Activity Unit := fun m => .ok () (f m)

/-- Adds an effect to the history. -/
def note (effect : Machine → Effect) : Activity Unit :=
  update fun m => { m with history := effect m :: m.history }

/-- Asks the host, who knows the history and may refuse. -/
def ask (answer : History → Option Failure) : Activity Unit := fun m =>
  match answer m.history with
  | none => .ok () m
  | some failure => .error failure m

def setFrames (frames : List Frame) : Activity Unit := update fun m => { m with frames }

/-- Calls a handler with an event. -/
def handle (event : Event) (handler : Handler) : Activity Unit := do
  note fun m => .handled handler.tag event m.store.stack.length m.frames.length
  ask handler.respond

/-- Calls handlers with an event, until one of them refuses. -/
def handleAll (event : Event) : List Handler → Activity Unit
  | [] => pure ()
  | handler :: rest => do
    handle event handler
    handleAll event rest

/-- Tells of an event. -/
def emit (host : Host) (event : Event) : Activity Unit := do
  note fun m => .emitted event m.frames.length
  handleAll event (host.hooks.handlers event.occasion)

/-- The text that printing a value writes. -/
def printed (outputBase : Int) (p : Print) : Except Breakdown Text :=
  (fun shown => if p.newline then shown ++ [.scalar '\n'] else shown)
    <$> p.value.shown outputBase

def print (host : Host) (p : Print) : Activity Unit := fun m =>
  match printed m.store.outputBase p with
  | .error b => .error (.breakdown b) m
  | .ok text =>
    (do
      ask (host.write · text)
      note fun _ => .wrote text) m

def printAll (host : Host) : List Print → Activity Unit
  | [] => pure ()
  | p :: rest => do
    print host p
    printAll host rest

/-- Gives a command to the host, after telling of it. -/
def command (host : Host) (text : Text) : Activity Unit := do
  emit host (.command text)
  note fun _ => .ran text
  ask (host.run · text)

/-- What the instruction called `name` answers, those that replace built-in ones going first. -/
def respond (name : Text) (next : Option Text) (turned : Bool) : Activity Response := fun m =>
  onStore (m.overrides.perform name next turned) m

/-- Performs the instruction called `name` and prints what it prints. -/
def perform (host : Host) (name : Text) (next : Option Text) (turned : Bool) :
    Activity Action := do
  let response ← respond name next turned
  ascribing name (printAll host response.prints)
  return response.action

def record (name : Text) (position : Nat) (action : Action) : Activity Unit :=
  update fun m => { m with
    journal := m.journal.record m.frames.length name position action m.store.stack.length }

end Machine

end DeskCalculator
