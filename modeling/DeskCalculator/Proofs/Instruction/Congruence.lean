import DeskCalculator.Instruction.Perform
import DeskCalculator.Proofs.Activity

/-!
Relations of stores that every instruction respects. It is enough that the single operations on a
store do: an instruction is made of them. The instructions that deal with the whole stack or with the
levels of a quit are left to each relation.
-/

namespace DeskCalculator

namespace Store

variable {α : Type}

/-- What the operations on a store do alike from related stores. -/
structure Congruence (lost : Failure → Prop) (r : Store → Store → Prop) : Prop where
  push : ∀ v, Stable lost r (push v)
  pop : Stable lost r pop
  top : Stable lost r top
  register : ∀ name, Stable lost r (register name)
  existingRegister : ∀ name, Stable lost r (existingRegister name)
  setRegister : ∀ name reg, Stable lost r (setRegister name reg)
  array : ∀ name, Stable lost r (array name)
  existingArray : ∀ name, Stable lost r (existingArray name)
  setArray : ∀ name cells, Stable lost r (setArray name cells)
  inputBase : Stable lost r (read (·.inputBase))
  outputBase : ∀ {β : Type} (f : (base : Int) → 2 ≤ base → β),
    Stable lost r (read fun s => f s.outputBase s.two_le_outputBase)
  scale : Stable lost r (read (·.scale))
  setInputBase : ∀ n, Stable lost r (update fun s => { s with inputBase := n })
  setOutputBase : ∀ n h,
    Stable lost r (update fun s => { s with outputBase := n, two_le_outputBase := h })
  setScale : ∀ n, Stable lost r (update fun s => { s with scale := n })

variable {lost : Failure → Prop} {r : Store → Store → Prop}

theorem stable_attempt (x : Except Failure α) : Stable lost r (attempt x) := by
  intro s t h
  cases x with
  | ok a => exact .ok rfl h
  | error failure => exact .error h

theorem stable_fail (failure : Failure) : Stable lost r (fail failure : Calculation α) :=
  fun _ _ h => .error h

/-- A store with another stack and other levels to end. -/
def reshape (stack : List Value → List Value) (levels : Int → Int) (s : Store) : Store :=
  { s with stack := stack s.stack, unwind := levels s.unwind }

section reshape
variable {stack : List Value → List Value} {levels : Int → Int}

theorem stable_register (name : Text) :
    Stable lost (fun s t => t = s.reshape stack levels) (register name) := by
  rintro s _ rfl
  simp only [register, reshape]
  cases s.registers.find? name <;> exact .ok rfl rfl

theorem stable_existingRegister (name : Text) :
    Stable lost (fun s t => t = s.reshape stack levels) (existingRegister name) := by
  rintro s _ rfl
  simp only [existingRegister, reshape]
  cases s.registers.find? name with
  | some reg => exact .ok rfl rfl
  | none => exact .error rfl

theorem stable_array (name : Text) :
    Stable lost (fun s t => t = s.reshape stack levels) (array name) := by
  rintro s _ rfl
  simp only [array, reshape]
  cases s.arrays.find? name <;> exact .ok rfl rfl

theorem stable_existingArray (name : Text) :
    Stable lost (fun s t => t = s.reshape stack levels) (existingArray name) := by
  rintro s _ rfl
  simp only [existingArray, reshape]
  cases s.arrays.find? name with
  | some cells => exact .ok rfl rfl
  | none => exact .error rfl

variable (push : ∀ v rest, stack (v :: rest) = v :: stack rest)
  (empty : stack [] = [] ∨ lost (.of .stackEmpty))
include push empty

theorem stable_pop : Stable lost (fun s t => t = s.reshape stack levels) pop := by
  rintro ⟨values⟩ _ rfl
  cases values with
  | cons v rest =>
    simp only [pop, reshape, push]
    exact .ok rfl rfl
  | nil =>
    obtain still | dropped := empty
    · simp only [pop, reshape, still]
      exact .error (by simp only [still])
    · exact .lost dropped

theorem stable_top : Stable lost (fun s t => t = s.reshape stack levels) top := by
  rintro ⟨values⟩ _ rfl
  cases values with
  | cons v rest =>
    simp only [top, reshape, push]
    exact .ok rfl (by simp only [push])
  | nil =>
    obtain still | dropped := empty
    · simp only [top, reshape, still]
      exact .error (by simp only [still])
    · exact .lost dropped

/-- It does not matter what is beneath the values that are taken, nor how many levels there are. -/
theorem congruence_reshape : Congruence lost fun s t => t = s.reshape stack levels where
  push v := by
    rintro s _ rfl
    refine .ok rfl ?_
    simp only [reshape, push]
  pop := stable_pop push empty
  top := stable_top push empty
  register := stable_register
  existingRegister := stable_existingRegister
  setRegister name reg := by
    rintro s _ rfl
    exact .ok rfl rfl
  array := stable_array
  existingArray := stable_existingArray
  setArray name cells := by
    rintro s _ rfl
    exact .ok rfl rfl
  inputBase := by
    rintro s _ rfl
    exact .ok rfl rfl
  outputBase f := by
    rintro s _ rfl
    exact .ok rfl rfl
  scale := by
    rintro s _ rfl
    exact .ok rfl rfl
  setInputBase n := by
    rintro s _ rfl
    exact .ok rfl rfl
  setOutputBase n h := by
    rintro s _ rfl
    exact .ok rfl rfl
  setScale n := by
    rintro s _ rfl
    exact .ok rfl rfl

end reshape

end Store

namespace Instruction

open Store

variable {lost : Failure → Prop} {r : Store → Store → Prop} (h : Congruence lost r)
include h

theorem stable_popInt (rule : Text) : Stable lost r (popInt rule) :=
  h.pop.bind fun _ => stable_attempt _

theorem stable_pushInt (n : Int) : Stable lost r (pushInt n) :=
  (h.push _).bind fun _ => .pure _

theorem stable_performOperator (op : Operator) : Stable lost r (performOperator op) :=
  h.pop.bind fun _ => h.pop.bind fun _ =>
    (stable_attempt _).bind fun _ => (h.push _).bind fun _ => .pure _

theorem stable_performDivMod : Stable lost r performDivMod :=
  h.pop.bind fun _ => h.pop.bind fun _ => (stable_attempt _).bind fun (_, _) =>
    (h.push _).bind fun _ => (h.push _).bind fun _ => .pure _

theorem stable_performCompare (relation : Relation) (turned : Bool) :
    Stable lost r (performCompare relation turned) :=
  h.pop.bind fun _ => h.pop.bind fun _ => (stable_attempt _).bind fun _ => .pure _

theorem stable_performSwap : Stable lost r performSwap :=
  h.pop.bind fun _ => h.pop.bind fun _ =>
    (h.push _).bind fun _ => (h.push _).bind fun _ => .pure _

theorem stable_performDump : Stable lost r performDump := by
  refine h.pop.bind fun v => ?_
  cases v with
  | text => exact .pure _
  | int | float => exact (stable_attempt _).bind fun _ => .pure _

theorem stable_performSetInputBase : Stable lost r performSetInputBase :=
  (stable_popInt h _).bind fun _ =>
    .ite ((h.setInputBase _).bind fun _ => .pure _) (stable_fail _)

theorem stable_performSetOutputBase : Stable lost r performSetOutputBase := by
  refine (stable_popInt h _).bind fun n => ?_
  split
  · exact (h.setOutputBase _ _).bind fun _ => .pure _
  · exact stable_fail _

theorem stable_performSetScale : Stable lost r performSetScale :=
  (stable_popInt h _).bind fun _ =>
    .ite ((h.setScale _).bind fun _ => .pure _) (stable_fail _)

theorem stable_performScaleOf : Stable lost r performScaleOf :=
  h.pop.bind fun _ => .ite (stable_fail _) (stable_pushInt h _)

theorem stable_performLoad (name : Text) : Stable lost r (performLoad name) :=
  (h.existingRegister _).bind fun _ => (h.push _).bind fun _ => .pure _

theorem stable_performStore (name : Text) : Stable lost r (performStore name) :=
  h.pop.bind fun _ => (h.register _).bind fun _ => (h.setRegister _ _).bind fun _ => .pure _

theorem stable_performRestore (name : Text) : Stable lost r (performRestore name) :=
  (h.existingRegister _).bind fun _ => (h.setRegister _ _).bind fun _ =>
    (h.push _).bind fun _ => .pure _

theorem stable_performSave (name : Text) : Stable lost r (performSave name) :=
  h.pop.bind fun _ => (h.register _).bind fun _ => (h.setRegister _ _).bind fun _ => .pure _

theorem stable_performStoreElement (name : Text) : Stable lost r (performStoreElement name) :=
  (stable_popInt h _).bind fun _ => h.pop.bind fun _ => (h.array _).bind fun _ =>
    (stable_attempt _).bind fun _ => (h.setArray _ _).bind fun _ => .pure _

theorem stable_performFetchElement (name : Text) : Stable lost r (performFetchElement name) :=
  (stable_popInt h _).bind fun _ => (h.existingArray _).bind fun _ =>
    (stable_attempt _).bind fun _ => (h.push _).bind fun _ => .pure _

omit h in
/-- The instructions that deal with the whole stack, or with the levels of a quit. -/
def isGlobal : Instruction → Bool
  | clear | depth | printAll | quit | quitLevels => true
  | _ => false

/-- An instruction respects what the operations on a store respect. -/
theorem stable_perform (next : Option Text) (turned : Bool) {i : Instruction}
    (hi : i.isGlobal → Stable lost r (i.perform next turned)) :
    Stable lost r (i.perform next turned) := by
  cases i with
  | clear | depth | printAll | quit | quitLevels => exact hi rfl
  | blank | comment | numeral | string | call => exact .pure _
  | bang => exact .ite (.pure _) (.pure _)
  | unimplemented => exact stable_fail _
  | operate op => exact stable_performOperator h op
  | divMod => exact stable_performDivMod h
  | compare relation => exact stable_performCompare h relation turned
  | squareRoot | character =>
    exact h.pop.bind fun _ => (stable_attempt _).bind fun _ => (h.push _).bind fun _ => .pure _
  | duplicate => exact h.top.bind fun _ => (h.push _).bind fun _ => .pure _
  | swap => exact stable_performSwap h
  | inputBase => exact h.inputBase.bind fun _ => stable_pushInt h _
  | outputBase => exact (h.outputBase fun base _ => base).bind fun _ => stable_pushInt h _
  | scale => exact h.scale.bind fun _ => stable_pushInt h _
  | length =>
    exact h.pop.bind fun v => (h.outputBase fun base large => v.length base large).bind fun _ =>
      stable_pushInt h _
  | scaleOf => exact stable_performScaleOf h
  | printTop => exact h.top.bind fun _ => .pure _
  | printPop => exact h.pop.bind fun _ => .pure _
  | dump => exact stable_performDump h
  | setInputBase => exact stable_performSetInputBase h
  | setOutputBase => exact stable_performSetOutputBase h
  | setScale => exact stable_performSetScale h
  | load => exact stable_performLoad h _
  | store => exact stable_performStore h _
  | restore => exact stable_performRestore h _
  | save => exact stable_performSave h _
  | fetchElement => exact stable_performFetchElement h _
  | storeElement => exact stable_performStoreElement h _

end Instruction

end DeskCalculator
