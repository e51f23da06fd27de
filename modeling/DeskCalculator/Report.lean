import DeskCalculator.Json
import DeskCalculator.Machine.Run

/-!
Reports of a traceback, as text for a reader and as a JSON document. Both may show the stack, which
is printed in the present output base; that can break down, and then there is no report.
-/

namespace DeskCalculator.Report

/-- The values of the stack as they are printed, the top first. -/
def stackTexts (store : Store) : Except Breakdown (List Text) :=
  store.stack.mapM (Value.shown store.outputBase)

/-- A place takes one line, and another for its statement unless that is empty. -/
def placeLines (p : Place) : List Text :=
  let tail :=
    if 1 < p.tailDepth then
      Text.ofString " (tail depth " ++ Numeral.decimal p.tailDepth ++ Text.ofString ")"
    else []
  let line := Text.ofString "  File \"" ++ p.name ++ Text.ofString "\", line "
    ++ Numeral.decimal p.line ++ Text.ofString ", column " ++ Numeral.decimal p.column ++ tail
  if p.statement.isEmpty then [line] else [line, Text.ofString "    " ++ p.statement]

def stepLines (step : Option Nat) : List Text :=
  step.toList.map fun n => Text.ofString "    Step index: " ++ Numeral.decimal n

def stackLine (texts : List Text) : Text :=
  Text.ofString "    Stack (top first): " ++ Text.joined (Text.ofString " | ") texts

/-- The last line names the fault and the instruction; a question mark is an unknown one. -/
def faultLine (f : Fault) : Text :=
  f.cause.kind.name ++ Text.ofString ": " ++ f.cause.message ++ Text.ofString " (instruction: "
    ++ Text.quoted (f.instruction.getD '?') ++ Text.ofString ")"

/-- The report as text; a verbose one shows the stack. -/
def text (t : Traceback) (store : Store) (verbose : Bool) : Except Breakdown Text := do
  let stackLines ←
    if verbose then (fun texts => [stackLine texts]) <$> stackTexts store else pure []
  return Text.joined [.scalar '\n']
    (Text.ofString "Traceback (most recent call last):"
      :: t.places.flatMap placeLines ++ stepLines t.step ++ stackLines ++ [faultLine t.fault])

def placeJson (index : Nat) (p : Place) : Json :=
  .object [
    (Text.ofString "frame_index", .number index),
    (Text.ofString "name", .string p.name),
    (Text.ofString "line", .number p.line),
    (Text.ofString "column", .number p.column),
    (Text.ofString "tail_depth", .number p.tailDepth),
    (Text.ofString "statement", .string p.statement)]

def faultJson (f : Fault) (step : Option Nat) : Json :=
  .object [
    (Text.ofString "type", .string f.cause.kind.name),
    (Text.ofString "message", .string f.cause.message),
    (Text.ofString "instruction", f.instruction.elim .null .string),
    (Text.ofString "failing_step_index", step.elim .null fun n => .number n)]

/-- The report as a JSON document, which always shows the stack. -/
def json (t : Traceback) (store : Store) : Except Breakdown Json := do
  let texts ← stackTexts store
  return .object [
    (Text.ofString "error", faultJson t.fault t.step),
    (Text.ofString "traceback", .array (t.places.mapIdx placeJson)),
    (Text.ofString "stack", .array (texts.map .string))]

end DeskCalculator.Report
