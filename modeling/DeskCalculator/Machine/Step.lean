import DeskCalculator.Machine.Basic

/-!
The steps of a machine. A step executes one instruction of the innermost frame, or leaves that frame
when its text has ended. What an instruction asks of the frames comes last: until then a step knows
nothing of the way of calling. It gives a signal when no frame is left, and the run is over.

Frames are a list, and any number of them may be active at once. A calculator whose frames lie on the
stack of another program has less room: where that overflows, in a text that calls itself with more
to do after the call, its run ends with an internal fault. This limit belongs to that program and not
to the language, and there is none of it here: such a text is executed for as long as steps are
allowed.
-/

namespace DeskCalculator.Machine

/-- Ends the innermost frame with a signal. -/
def leave (signal : Signal) (callers : List Frame) : Activity (Option Signal) := fun m =>
  let (signal, unwind, frames) := Frame.unwound signal m.store.unwind callers
  .ok (if frames.isEmpty then some signal else none)
    { m with store := { m.store with unwind }, frames }

/-- Ends as many levels as the quit asks for, the texts that this frame has had counting one each. A
quit for fewer levels than that ends the frame alone. -/
def quit (frame : Frame) (callers : List Frame) : Activity (Option Signal) := fun m =>
  if (frame.tailDepth : Int) ≤ m.store.unwind then
    leave .quit callers
      { m with store := { m.store with unwind := m.store.unwind - frame.tailDepth } }
  else leave .okay callers m

/-- Does what an instruction of `frame` asks of the frames. -/
def follow (calling : Calling) (frame : Frame) (callers : List Frame) :
    Move → Activity (Option Signal)
  | .goOn cursor turned => do
    setFrames ({ frame with cursor, turned } :: callers)
    return none
  | .call text cursor => do
    setFrames (({ frame with cursor } : Frame).call calling text ++ callers)
    return none
  | .quit => quit frame callers

/-- Calls a value at a cursor: a text is executed, and any other value is pushed. The blanks after
the call are skipped first, since they are nothing left to execute. -/
def invoke (cursor : Cursor) (v : Value) : Activity Move := do
  let cursor := cursor.skipBlank
  match v with
  | .text text => return .call text cursor
  | v =>
    onStore (Store.push v)
    return .goOn cursor

/-- Does what the instruction `name` of `frame` has asked for; the cursor is behind it. -/
def act (host : Host) (name : Text) (next : Option Text) (frame : Frame) (callers : List Frame) :
    Action → Activity Move
  | .proceed => return .goOn frame.cursor
  | .skipName => return .goOn (frame.cursor.advance 1)
  | .callRegister => do
    let register ← onStore (Store.existingRegister (Instruction.nameOf next))
    invoke (frame.cursor.advance 1) register.value
  | .callTop => do
    let v ← onStore Store.pop
    invoke frame.cursor v
  | .quit => return .quit
  | .numeral => do
    let start : Cursor := { frame.cursor with index := frame.position }
    let (v, cursor) := start.numeral (← onStore (Store.read (·.inputBase)))
    onStore (Store.push v)
    return .goOn cursor
  | .string => do
    let (text, cursor) := frame.cursor.string
    onStore (Store.push (.text text))
    return .goOn cursor
  | .comment => return .goOn frame.cursor.line.2
  | .negate => return .goOn frame.cursor true
  | .command => do
    let (line, cursor) := frame.cursor.line
    setFrames ({ frame with cursor } :: callers)
    command host line
    return .goOn cursor
  | .unknown action => onStore (Store.fail (.of (.unknownAction action) name))

/-- Executes the instruction `name` at the cursor of `frame`; `cursor` is behind it. It is recorded
once it has been performed, before what it asks for is done. -/
def execute (host : Host) (name : Text) (cursor : Cursor) (frame : Frame) (callers : List Frame) :
    Activity Move := do
  let begun := frame.begin cursor
  let next := cursor.peek?.map ([·])
  setFrames (begun :: callers)
  let action ← perform host name next frame.turned
  record name begun.position action
  act host name next begun callers action

def step (host : Host) (calling : Calling) : Activity (Option Signal) := fun m =>
  match m.frames with
  | [] => .ok (some .okay) m
  | frame :: callers =>
    match frame.cursor.next? with
    | none => leave .okay callers m
    | some (ch, cursor) =>
      (do
        let move ← execute host [ch] cursor frame callers
        follow calling (frame.begin cursor) callers move) m

/-- Steps until the run is over, at most `limit` times. -/
def steps (host : Host) (calling : Calling) : Nat → Activity (Option Signal)
  | 0, m => .ok none m
  | limit + 1, m =>
    match step host calling m with
    | .ok none m => steps host calling limit m
    | ended => ended

end DeskCalculator.Machine
