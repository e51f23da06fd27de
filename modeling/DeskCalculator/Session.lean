import DeskCalculator.Report

/-!
A session with one machine: programs run one after another, each starting from what the one before
left, and the traceback of the last program that failed is at hand.
-/

namespace DeskCalculator

structure Session where
  machine : Machine := {}
  last : Option Traceback := none
  deriving DecidableEq, Repr

namespace Session

def start (verbose : Bool) : Session := { machine := { journal := { verbose } } }

/-- Runs a program. Only a fault replaces the traceback at hand. -/
def run (host : Host) (limit : Nat) (name source : Text) (s : Session) :
    Option (Except RunFailure Signal × Session) :=
  (s.machine.run host .flat limit name source).map fun (result, machine) =>
    match result with
    | .error (.fault t) => (result, { machine, last := some t })
    | _ => (result, { s with machine })

def reset (s : Session) : Session := { s with machine := s.machine.reset }

def push (v : Value) (s : Session) : Session :=
  { s with machine := { s.machine with store :=
    { s.machine.store with stack := v :: s.machine.store.stack } } }

/-- Puts a stub in the place of the instruction `name`, until the next reset. -/
def override (name : Text) (stub : Stub) (s : Session) : Session :=
  { s with machine := { s.machine with overrides := s.machine.overrides.insert name stub } }

/-- A value as the session prints it now. -/
def shown (v : Value) (s : Session) : Except Breakdown Text :=
  v.shown s.machine.store.outputBase

/-- The report of the traceback at hand. -/
def report (verbose : Bool) (s : Session) : Option (Except Breakdown Text) :=
  s.last.map fun t => Report.text t s.machine.store verbose

def jsonReport (s : Session) : Option (Except Breakdown Text) :=
  s.last.map fun t => Json.indented <$> Report.json t s.machine.store

end Session

end DeskCalculator
