import DeskCalculator.Cursor
import DeskCalculator.Machine.Signal

/-!
Frames: the texts that are being executed, each with its place. A macro called at the end of a text
takes over the frame of that text, so a loop does not pile frames up; how many texts a frame has had
in turn is its tail depth.
-/

namespace DeskCalculator

/-- `position` is where the current instruction stands, and `turned` tells that the sense of the
next comparison is turned. -/
structure Frame where
  name : Text
  cursor : Cursor
  position : Nat := 0
  tailDepth : Nat := 1
  turned : Bool := false
  deriving DecidableEq, Repr

/-- A place in a program, as a traceback shows it. Lines and columns count from one. -/
structure Place where
  name : Text
  line : Nat
  column : Nat
  tailDepth : Nat
  statement : Text
  deriving DecidableEq, Repr

/-- Whether a macro takes over the frame of a caller that has nothing left to execute, or every call
has a frame of its own. -/
inductive Calling where
  | flat
  | nested
  deriving DecidableEq, Repr

/-- What an instruction asks of the frames: to go on at a cursor, the sense of the next comparison
being turned or not, to call a text from there, or to quit. -/
inductive Move where
  | goOn (cursor : Cursor) (turned : Bool := false)
  | call (text : Text) (cursor : Cursor)
  | quit
  deriving DecidableEq, Repr

namespace Frame

def ofText (name text : Text) : Frame := { name, cursor := ⟨text, 0⟩ }

def macroName : Text := Text.ofString "<macro>"

/-- A frame that begins to execute the instruction at its cursor; `cursor` is behind it. -/
def begin (cursor : Cursor) (frame : Frame) : Frame :=
  { frame with cursor, position := frame.cursor.index, turned := false }

/-- The frames that take the place of a frame which calls `text`, the innermost first. -/
def call (calling : Calling) (text : Text) (frame : Frame) : List Frame :=
  if calling = .flat ∧ frame.cursor.atEnd then
    [{ frame with cursor := ⟨text, 0⟩, position := 0, tailDepth := frame.tailDepth + 1 }]
  else [ofText macroName text, frame]

def place (frame : Frame) : Place :=
  let (line, column) := Text.location frame.cursor.text frame.position
  { name := frame.name, line, column, tailDepth := frame.tailDepth,
    statement := Text.lineAt frame.cursor.text frame.position }

/-- What remains when a callee has ended with a signal, `unwind` levels being left to end. The end
of a text returns to its caller. A quit ends the caller, and goes on beyond it as long as levels are
left. -/
def unwound : Signal → Int → List Frame → Signal × Int × List Frame
  | .okay, unwind, callers => (.okay, unwind, callers)
  | .quit, unwind, [] => (.quit, unwind, [])
  | .quit, unwind, _ :: callers =>
    if 0 < unwind then unwound .quit (unwind - 1) callers else unwound .okay unwind callers

end Frame

end DeskCalculator
