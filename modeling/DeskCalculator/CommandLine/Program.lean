import DeskCalculator.CommandLine.Files
import DeskCalculator.CommandLine.Usage
import DeskCalculator.Session

/-!
The command: it collects the programs that its arguments name and runs them in order on one machine,
until one of them quits or fails. Nothing is run unless all of them can be read.
-/

namespace DeskCalculator.CommandLine

/-- Why the shell does not take a command: the system does not start it, for a reason that it gives,
or handing the command over breaks down. -/
inductive ShellFault where
  | unstarted (reason : Text)
  | broken (b : Breakdown)
  deriving DecidableEq, Repr

/-- Only what the system gives as a reason is a fault of the program. -/
def ShellFault.failure : ShellFault → Failure
  | unstarted reason => .fault ⟨.commandFailed reason, some '!'⟩
  | broken b => .breakdown b

/-- The surroundings of the command. The shell may take one command and not another, and that may
depend on what has happened before; `shellFault` is the reason why it takes none, if it takes none. -/
structure Surroundings where
  file : Text → Except FileFault (List UInt8)
  input : List UInt8
  shellFault : Option Text := none
  shell : History → Text → Option ShellFault := fun _ _ => none

/-- What the shell makes of a command. -/
def Surroundings.refusal? (surroundings : Surroundings) (history : History) (command : Text) :
    Option ShellFault :=
  match surroundings.shellFault with
  | some reason => some (.unstarted reason)
  | none => surroundings.shell history command

/-- How the command ends: with an exit status, or by a breakdown that it does not handle. -/
inductive Ending where
  | exit (status : Nat)
  | broken (b : Breakdown)
  deriving DecidableEq, Repr

/-- What the command did; `commands` has what was written before each command. -/
structure Outcome where
  ending : Ending
  output : Text := []
  errors : Text := []
  commands : List (Text × Text) := []
  deriving DecidableEq, Repr

/-- A program and the name that its places are shown under. -/
structure Source where
  name : Text
  text : Text
  deriving DecidableEq, Repr

inductive SourceFault where
  | unreadable (name : Text) (fault : FileFault)
  | broken (b : Breakdown)
  deriving DecidableEq, Repr

def decodeSource (name : Text) (bytes : List UInt8) : Except SourceFault Source :=
  match Utf8.decode bytes with
  | .ok text => .ok ⟨name, Text.unifyNewlines text⟩
  | .error failure => .error (.broken (.undecodable failure))

def fileSource (surroundings : Surroundings) (name : Text) : Except SourceFault Source :=
  if name.contains (.scalar '\x00') then .error (.broken .nullInName)
  else
    match surroundings.file name with
    | .ok bytes => decodeSource name bytes
    | .error fault => .error (.unreadable name fault)

/-- The expressions, then the files; the standard input when there are neither. -/
def sources (surroundings : Surroundings) (options : Options) :
    Except SourceFault (List Source) := do
  let expressions := options.expressions.map fun text => ⟨Text.ofString "<expression>", text⟩
  let files ← options.files.mapM (fileSource surroundings)
  match expressions ++ files with
  | [] => return [← decodeSource (Text.ofString "<stdin>") surroundings.input]
  | all => return all

/-- The output takes any text that has bytes, and commands go to the shell. -/
def host (surroundings : Surroundings) : Host where
  write := fun _ t => (Utf8.encodingFailure? t).map fun failure => .breakdown (.unencodable failure)
  run := fun history command => (surroundings.refusal? history command).map ShellFault.failure

/-- Runs sources in order up to the first that quits or fails. -/
def runSources (host : Host) (limit : Nat) :
    Session → List Source → Option (Except RunFailure Signal × Session)
  | s, [] => some (.ok .okay, s)
  | s, source :: rest =>
    match s.run host limit source.name source.text with
    | some (.ok .okay, s) => runSources host limit s rest
    | ended => ended

/-- What was written, in the order of writing. -/
def written (history : History) : Text :=
  history.reverse.flatMap fun effect =>
    match effect with
    | .wrote t => t
    | _ => []

/-- The commands that were run, the first one first, each with what was written before it. -/
def commandsRun : History → List (Text × Text)
  | [] => []
  | .ran command :: earlier => commandsRun earlier ++ [(command, written earlier)]
  | _ :: earlier => commandsRun earlier

/-- A report as it is written to the errors, where a surrogate is written as an escape. -/
def errorLine (t : Text) : Text := Utf8.escapeSurrogates t ++ [.scalar '\n']

/-- Reports a fault as text and, if asked for, as a JSON document. A report that breaks down ends
the command. -/
def report (options : Options) (t : Traceback) (store : Store) : Ending × Text :=
  match Report.text t store options.verbose with
  | .error b => (.broken b, [])
  | .ok text =>
    if options.json then
      match Report.json t store with
      | .error b => (.broken b, errorLine text)
      | .ok document => (.exit 1, errorLine text ++ errorLine document.indented)
    else (.exit 1, errorLine text)

def execute (surroundings : Surroundings) (limit : Nat) (options : Options) (all : List Source) :
    Option Outcome := do
  let (result, s) ← runSources (host surroundings) limit (Session.start options.verbose) all
  let (ending, errors) :=
    match result with
    | .ok _ => (.exit 0, [])
    | .error (.fault t) => report options t s.machine.store
    | .error (.breakdown b) => (.broken b, [])
  return { ending, errors, output := written s.machine.history,
           commands := commandsRun s.machine.history }

/-- The whole command. There is no outcome when a program takes more than `limit` steps. -/
def run (surroundings : Surroundings) (limit : Nat) (arguments : List Text) : Option Outcome :=
  match Options.ofArguments arguments with
  | .error .help => some { ending := .exit 0, output := helpText }
  | .error (.usage fault) => some { ending := .exit 2, errors := errorText fault.report }
  | .ok options =>
    match sources surroundings options with
    | .error (.unreadable name fault) =>
      some {
        ending := .exit 1
        errors := errorLine (Text.ofString "Failed to read " ++ name ++ Text.ofString ": "
          ++ fault.message ++ Text.ofString ": " ++ Text.quoted name) }
    | .error (.broken b) => some { ending := .broken b }
    | .ok all => execute surroundings limit options all
where
  errorText (t : Text) : Text := Utf8.escapeSurrogates t

end DeskCalculator.CommandLine
