import DeskCalculator.Instruction.Action
import DeskCalculator.Instruction.Basic
import DeskCalculator.Store.Basic

/-!
What each instruction does: how it changes the store, what it prints and which action it asks for.
An instruction that fails keeps what it did before, so operands already taken stay taken.
-/

namespace DeskCalculator

/-- A value to be printed, with a newline after it or not. -/
structure Print where
  value : Value
  newline : Bool
  deriving DecidableEq, Repr

structure Response where
  action : Action := .proceed
  prints : List Print := []
  deriving DecidableEq, Repr

namespace Instruction

open Store

/-- The name that follows an instruction. Where the text has ended there is none, which is shown as
a name that no program can write. -/
def nameOf (next : Option Text) : Text := next.getD (Text.ofString "None")

/-- Whether `t` is a sign of comparison, or several of them in the order of `<=>`. -/
def isComparison (t : Text) : Bool :=
  let signs := Text.ofString "<=>"
  (List.range signs.length).any fun k => t.isPrefixOf (signs.drop k)

def popInt (rule : Text) : Calculation Int := do attempt ((← pop).toInt rule)

def pushInt (n : Int) : Calculation Response := do
  push (.int n)
  return {}

/-- Takes the right operand and then the left one, and leaves the result. -/
def performOperator (op : Operator) : Calculation Response := do
  let right ← pop
  let left ← pop
  push (← attempt (Value.operate op left right))
  return {}

/-- Leaves the quotient and, on top of it, the remainder. -/
def performDivMod : Calculation Response := do
  let right ← pop
  let left ← pop
  let (quotient, remainder) ← attempt (Value.divMod left right)
  push quotient
  push remainder
  return {}

/-- Takes two numbers and asks for the named register to be called if the relation holds from the
upper to the lower one; if the sense is turned, if it does not hold. -/
def performCompare (r : Relation) (turned : Bool) : Calculation Response := do
  let upper ← pop
  let lower ← pop
  let order ← attempt (upper.compare [r.symbol] lower)
  return { action := if r.holds order != turned then .callRegister else .skipName }

def performSwap : Calculation Response := do
  let upper ← pop
  let lower ← pop
  push upper
  push lower
  return {}

/-- Prints a text as it is, and the character of a number. -/
def performDump : Calculation Response := do
  match ← pop with
  | .text t => return { prints := [⟨.text t, false⟩] }
  | v =>
    let t ← attempt (v.toCharacter 'P')
    return { prints := [⟨.text t, false⟩] }

/-- The input base is from 2 to 16. -/
def performSetInputBase : Calculation Response := do
  let n ← popInt 'i'
  if 2 ≤ n ∧ n ≤ 16 then
    update fun s => { s with inputBase := n }
    return {}
  else fail (.of (.inputBase n) (some 'i'))

/-- The output base is any integer above one. -/
def performSetOutputBase : Calculation Response := do
  let n ← popInt 'o'
  if h : 1 < n then
    update fun s => { s with outputBase := n, two_le_outputBase := h }
    return {}
  else fail (.of (.outputBase n) (some 'o'))

def performSetScale : Calculation Response := do
  let n ← popInt 'k'
  if 0 ≤ n then
    update fun s => { s with scale := n }
    return {}
  else fail (.of (.negativeScale n) (some 'k'))

def performScaleOf : Calculation Response := do
  if (← pop).isNumber then fail (.of .scaleOfNumber (some 'X')) else pushInt 0

/-- Leaves `n - 1` levels to unwind beside the one that quits. -/
def performQuitLevels : Calculation Response := do
  let n ← popInt 'Q'
  if 0 < n then
    update fun s => { s with unwind := n - 1 }
    return { action := .quit }
  else fail (.of (.quitLevels n) (some 'Q'))

def performLoad (name : Text) : Calculation Response := do
  push (← existingRegister name).value
  return { action := .skipName }

def performStore (name : Text) : Calculation Response := do
  let v ← pop
  let r ← register name
  setRegister name { r with value := v }
  return { action := .skipName }

/-- Takes the current value of a register, which goes back to the value saved before it. -/
def performRestore (name : Text) : Calculation Response := do
  let r ← existingRegister name
  setRegister name r.restore
  push r.value
  return { action := .skipName }

def performSave (name : Text) : Calculation Response := do
  let v ← pop
  let r ← register name
  setRegister name (r.save v)
  return { action := .skipName }

/-- The index is on top of the value. An array named for the first time is made even if the index
turns out to be negative. -/
def performStoreElement (name : Text) : Calculation Response := do
  let index ← popInt ':'
  let v ← pop
  let cells ← array name
  setArray name (← attempt (cells.store index v))
  return { action := .skipName }

def performFetchElement (name : Text) : Calculation Response := do
  let index ← popInt ';'
  let cells ← existingArray name
  push (← attempt (cells.fetch index name))
  return { action := .skipName }

/-- What an instruction does, given what follows it and whether the sense of a comparison is
turned. -/
def perform (next : Option Text) (turned : Bool) : Instruction → Calculation Response
  | blank => return {}
  | comment => return { action := .comment }
  | numeral => return { action := .numeral }
  | string => return { action := .string }
  | bang =>
    if next.any isComparison then return { action := .negate }
    else return { action := .command }
  | operate op => performOperator op
  | divMod => performDivMod
  | compare r => performCompare r turned
  | squareRoot => do
    push (← attempt (← pop).sqrt)
    return {}
  | character => do
    push (.text (← attempt ((← pop).toCharacter 'a')))
    return {}
  | clear => do
    Store.clear
    return {}
  | duplicate => do
    push (← top)
    return {}
  | swap => performSwap
  | depth => do pushInt (← read (·.stack.length))
  | length => do
    let v ← pop
    pushInt (← read fun s => v.length s.outputBase s.two_le_outputBase)
  | scaleOf => performScaleOf
  | printTop => do return { prints := [⟨← top, true⟩] }
  | printPop => do return { prints := [⟨← pop, false⟩] }
  | printAll => do return { prints := (← read (·.stack)).map (⟨·, true⟩) }
  | dump => performDump
  | setInputBase => performSetInputBase
  | setOutputBase => performSetOutputBase
  | setScale => performSetScale
  | inputBase => do pushInt (← read (·.inputBase))
  | outputBase => do pushInt (← read (·.outputBase))
  | scale => do pushInt (← read (·.scale))
  | call => return { action := .callTop }
  | quit => do
    update fun s => { s with unwind := 1 }
    return { action := .quit }
  | quitLevels => performQuitLevels
  | load => performLoad (nameOf next)
  | store => performStore (nameOf next)
  | restore => performRestore (nameOf next)
  | save => performSave (nameOf next)
  | fetchElement => performFetchElement (nameOf next)
  | storeElement => performStoreElement (nameOf next)
  | unimplemented => fail (.of .notImplemented)

end Instruction

/-- An instruction put in the place of a built-in one: it only asks for an action. -/
structure Stub where
  action : Action
  needsName : Bool := false
  deriving DecidableEq, Repr

/-- The instructions that replace built-in ones, by their name. -/
abbrev Overrides := Table Text Stub

/-- Performs the instruction called `name`. It fails untouched when a name has to follow it and none
does; any other fault is ascribed to the instruction unless it said otherwise. -/
def Overrides.perform (overrides : Overrides) (name : Text) (next : Option Text) (turned : Bool) :
    Calculation Response :=
  let needsName : Bool :=
    match overrides.find? name with
    | some stub => stub.needsName
    | none => (Instruction.ofName name).needsName
  if needsName ∧ next = none then Store.fail (.of (.missingName name) name)
  else
    match overrides.find? name with
    | some stub => return { action := stub.action }
    | none => fun s =>
      match (Instruction.ofName name).perform next turned s with
      | .ok response s => .ok response s
      | .error failure s => .error (failure.ascribe name) s

end DeskCalculator
