import DeskCalculator.Literal

/-!
A cursor in a text. Each reader takes what stands at the cursor and gives the cursor after it. A
cursor may stand past the end of its text, where there is nothing to read.
-/

namespace DeskCalculator

structure Cursor where
  text : Text
  index : Nat := 0
  deriving DecidableEq, Repr

namespace Cursor

def rest (c : Cursor) : Text := c.text.drop c.index

def peek? (c : Cursor) : Option CodePoint := c.rest.head?

def atEnd (c : Cursor) : Bool := c.rest.isEmpty

def advance (c : Cursor) (n : Nat) : Cursor := { c with index := c.index + n }

def toEnd (c : Cursor) : Cursor := { c with index := c.text.length }

/-- The character at the cursor, and the cursor after it. -/
def next? (c : Cursor) : Option (CodePoint × Cursor) := c.peek?.map fun ch => (ch, c.advance 1)

/-- Reads the numeral at the cursor, which may be empty. -/
def numeral (base : Int) (c : Cursor) : Value × Cursor :=
  let run := Literal.numeralRun c.rest
  (Literal.number base run, { c with index := min c.index c.text.length + run.length })

/-- Reads a string whose opening bracket is before the cursor, and passes its closing bracket. A
string that is never closed runs to the end of the text. -/
def string (c : Cursor) : Text × Cursor :=
  match Literal.closing? 0 c.rest with
  | some k => (c.rest.take k, c.advance (k + 1))
  | none => (c.rest, c.toEnd)

/-- Reads up to the end of the line, and passes the newline. -/
def line (c : Cursor) : Text × Cursor :=
  let line := Text.firstLine c.rest
  (line, if line.length < c.rest.length then c.advance (line.length + 1) else c.toEnd)

def skipBlank (c : Cursor) : Cursor := c.advance (Literal.blankLength false c.rest)

end Cursor

end DeskCalculator
