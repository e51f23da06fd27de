import DeskCalculator.Store.Table
import DeskCalculator.Value.Basic

/-!
What the calculator remembers: the main stack, the registers, the arrays and four numbers. A
calculation reads and changes it, and keeps the changes made so far when it fails.
-/

namespace DeskCalculator

/-- A register: its current value, and the values saved beneath it, the latest first. -/
structure Register where
  value : Value := default
  saved : List Value := []
  deriving DecidableEq, Repr

namespace Register

def save (r : Register) (v : Value) : Register := ⟨v, r.value :: r.saved⟩

/-- Goes back to the latest saved value, or to zero when none is left. -/
def restore (r : Register) : Register :=
  match r.saved with
  | [] => ⟨default, []⟩
  | v :: saved => ⟨v, saved⟩

end Register

/-- An array: the values stored so far, by their index. -/
abbrev Cells := Table Int Value

namespace Cells

def store (cells : Cells) (index : Int) (v : Value) : Except Failure Cells :=
  if index < 0 then .error (.of (.negativeIndex index)) else .ok (cells.insert index v)

/-- The value at an index of the array called `name`. -/
def fetch (cells : Cells) (index : Int) (name : Text) : Except Failure Value :=
  match cells.find? index with
  | some v => .ok v
  | none => .error (.of (.missingElement name index))

end Cells

/-- Ten is the output base of a new store. -/
theorem two_le_ten : (2 : Int) ≤ 10 := by decide

/-- The state of a calculator. `stack` has its top first; `unwind` is the number of macro calls that
a quit has still to end. -/
structure Store where
  stack : List Value := []
  registers : Table Text Register := {}
  arrays : Table Text Cells := {}
  inputBase : Int := 10
  outputBase : Int := 10
  scale : Int := 0
  unwind : Int := 0
  /-- Integers have digits in the output base, and their digits come to an end. -/
  two_le_outputBase : 2 ≤ outputBase := by first | exact two_le_ten | decide
  deriving DecidableEq, Repr

abbrev Calculation := EStateM Failure Store

namespace Store

variable {α : Type}

/-- A result that does not depend on the store. -/
def attempt (r : Except Failure α) : Calculation α := fun s =>
  match r with
  | .ok a => .ok a s
  | .error failure => .error failure s

def fail (failure : Failure) : Calculation α := fun s => .error failure s

def read (f : Store → α) : Calculation α := fun s => .ok (f s) s

def update (f : Store → Store) : Calculation Unit := fun s => .ok () (f s)

def push (v : Value) : Calculation Unit := update fun s => { s with stack := v :: s.stack }

def pop : Calculation Value := fun s =>
  match s.stack with
  | [] => .error (.of .stackEmpty) s
  | v :: rest => .ok v { s with stack := rest }

def top : Calculation Value := fun s =>
  match s.stack with
  | [] => .error (.of .stackEmpty) s
  | v :: _ => .ok v s

def clear : Calculation Unit := update fun s => { s with stack := [] }

/-- The register called `name`, made if there is none. -/
def register (name : Text) : Calculation Register := fun s =>
  match s.registers.find? name with
  | some r => .ok r s
  | none => .ok {} { s with registers := s.registers.insert name {} }

def existingRegister (name : Text) : Calculation Register := fun s =>
  match s.registers.find? name with
  | some r => .ok r s
  | none => .error (.of (.emptyRegister name)) s

def setRegister (name : Text) (r : Register) : Calculation Unit :=
  update fun s => { s with registers := s.registers.insert name r }

/-- The array called `name`, made if there is none. -/
def array (name : Text) : Calculation Cells := fun s =>
  match s.arrays.find? name with
  | some cells => .ok cells s
  | none => .ok {} { s with arrays := s.arrays.insert name {} }

def existingArray (name : Text) : Calculation Cells := fun s =>
  match s.arrays.find? name with
  | some cells => .ok cells s
  | none => .error (.of (.emptyArray name)) s

def setArray (name : Text) (cells : Cells) : Calculation Unit :=
  update fun s => { s with arrays := s.arrays.insert name cells }

/-- The stack as a listing, its bottom first. -/
def listing (stack : List Value) : Except Breakdown Text := do
  let items ← stack.reverse.mapM Value.listed
  return Text.ofString "Stack[" ++ Text.joined (Text.ofString ", ") items ++ Text.ofString "]"

end Store

end DeskCalculator
