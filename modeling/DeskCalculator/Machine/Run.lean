import DeskCalculator.Machine.Step

/-!
Runs of whole programs. The host is told when a program starts, and then either how it ended or what
was wrong with it. A failure of the evaluation, even one of the machine underneath, becomes a
traceback; a failure of a handler that is told of the start or the end is passed on as it is. Calls
may be nested as deeply as the steps allow, so no run fails for want of room for its frames.
-/

namespace DeskCalculator

/-- A fault as a run raises it: with the step that failed and the places of all frames, outermost
first. -/
structure Traceback where
  fault : Fault
  step : Option Nat := none
  places : List Place := []
  deriving DecidableEq, Repr

inductive RunFailure where
  | fault (t : Traceback)
  | breakdown (b : Breakdown)
  deriving DecidableEq, Repr

/-- A failure outside the evaluation, which belongs to no step and to no place. -/
def Failure.passedOn : Failure → RunFailure
  | fault f => .fault { fault := f }
  | breakdown b => .breakdown b

/-- The fault that a failure of the evaluation is told as. -/
def Failure.told : Failure → Fault
  | fault f => f
  | breakdown b => { cause := .internal b }

namespace Machine

/-- The traceback of a failure in the present state. A fault not ascribed to an instruction yet is
ascribed to the last one recorded. -/
def traceback (m : Machine) (failure : Failure) : Traceback :=
  let fault := failure.told
  { fault := { fault with instruction := fault.instruction <|> m.journal.last }
    step := m.journal.lastStep?
    places := (m.frames.map Frame.place).reverse }

/-- Tells of an event that ends a run with `result`. -/
def conclude (host : Host) (event : Event) (result : Except RunFailure Signal) (m : Machine) :
    Except RunFailure Signal × Machine :=
  match emit host event m with
  | .ok () m => (result, m)
  | .error failure m => (.error failure.passedOn, m)

/-- Executes a program called `name`. There is no result when it takes more than `limit` steps. -/
def run (host : Host) (calling : Calling) (limit : Nat) (name source : Text) (m : Machine) :
    Option (Except RunFailure Signal × Machine) :=
  match emit host (.programStart source)
      { m with store := { m.store with unwind := 0 }, frames := [] } with
  | .error failure m => some (.error failure.passedOn, m)
  | .ok () m =>
    match steps host calling limit { m with frames := [Frame.ofText name source] } with
    | .ok none _ => none
    | .ok (some signal) m => some (conclude host (.programEnd signal) (.ok signal) m)
    | .error failure m =>
      let t := m.traceback failure
      some (conclude host (.onError t.fault) (.error (.fault t)) { m with frames := [] })

/-- Discards the store and the overrides. The journal and the history go on. -/
def reset (m : Machine) : Machine := { m with store := {}, overrides := {}, frames := [] }

end Machine

end DeskCalculator
