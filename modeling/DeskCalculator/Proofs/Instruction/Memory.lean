import DeskCalculator.Proofs.Sparing

/-!
What a store remembers beside its stack: the register of each name, and the element at each index of
each array. Four instructions change it, one register or one element at a time, and the others leave
it as it is. So does an instruction that fails, since an array that it may have made has no elements.
-/

namespace DeskCalculator

/-- The registers by their names, and the elements of arrays by name and index. -/
structure Memory where
  register? : Text → Option Register
  element? : Text → Int → Option Value

namespace Memory

variable {name : Text} {index : Int}

/-- The register called `name`, a new one if there is none. -/
def register (name : Text) (mem : Memory) : Register := (mem.register? name).getD {}

def setRegister (name : Text) (r : Register) (mem : Memory) : Memory :=
  { mem with register? := fun n => if n = name then some r else mem.register? n }

def setElement (name : Text) (index : Int) (v : Value) (mem : Memory) : Memory :=
  { mem with
    element? := fun n i => if n = name ∧ i = index then some v else mem.element? n i }

theorem register?_setRegister (name n : Text) (r : Register) (mem : Memory) :
    (mem.setRegister name r).register? n = if n = name then some r else mem.register? n := rfl

theorem element?_setElement (name n : Text) (index i : Int) (v : Value) (mem : Memory) :
    (mem.setElement name index v).element? n i =
      if n = name ∧ i = index then some v else mem.element? n i := rfl

end Memory

namespace Store

variable {α : Type} {s t : Store} {name : Text}

def memory (s : Store) : Memory where
  register? := s.registers.find?
  element? name index := (s.arrays.find? name).bind (·.find? index)

theorem memory_of_eq (registers : t.registers = s.registers) (arrays : t.arrays = s.arrays) :
    t.memory = s.memory := by
  rw [memory, memory, registers, arrays]

/-- A new array has no elements. -/
theorem memory_with_array (name : Text) (s : Store) :
    memory { s with arrays := s.arraysWith name } = s.memory := by
  unfold arraysWith memory
  cases found : s.arrays.find? name with
  | some cells => rfl
  | none =>
    simp only [Table.find?_insert, Memory.mk.injEq, true_and]
    funext n index
    by_cases same : n = name
    · subst same
      rw [if_pos rfl, found]
      rfl
    · rw [if_neg same]

theorem memory_insert_register (name : Text) (r : Register) (s : Store) :
    memory { s with registers := s.registers.insert name r } = s.memory.setRegister name r := by
  simp only [memory, Memory.setRegister, Memory.mk.injEq, and_true]
  funext n
  exact Table.find?_insert _ _ _ _

theorem memory_insert_element (name : Text) (index : Int) (v : Value) (s : Store) :
    memory { s with
        arrays := s.arrays.insert name (((s.arrays.find? name).getD {}).insert index v) } =
      s.memory.setElement name index v := by
  simp only [memory, Memory.setElement, Memory.mk.injEq, true_and]
  funext n i
  rw [Table.find?_insert]
  by_cases here : n = name
  · subst here
    rw [if_pos rfl, Option.bind_some, Table.find?_insert]
    by_cases there : i = index
    · simp [there]
    · rw [if_neg there, if_neg fun h => there h.2]
      cases s.arrays.find? n <;> rfl
  · rw [if_neg here, if_neg fun h => here h.1]

theorem Spared.memory {ch : CodePoint} {next : Option Text} (h : Spared ch next s t) :
    t.memory = s.memory := by
  obtain same | ⟨-, -, none, made⟩ := h.arrays
  · exact memory_of_eq h.registers same
  · rw [← memory_with_array (Instruction.nameOf next) s]
    refine memory_of_eq h.registers (made.trans ?_)
    simp only [arraysWith, none]

theorem keeps_memory_push (v : Value) : Keeps memory (push v) := fun _ => rfl

theorem keeps_memory_pop : Keeps memory pop := by
  intro s
  unfold pop
  cases s.stack <;> rfl

theorem stack_of_pop {v : Value} (popped : pop s = .ok v t) : ∃ rest, s.stack = v :: rest := by
  unfold pop at popped
  split at popped
  · cases popped
  · rename_i w rest stack
    obtain ⟨rfl, -⟩ := EStateM.Result.ok.inj popped
    exact ⟨rest, stack⟩

/-- Whether a register has just been made or not, writing it comes to the same. -/
theorem memory_of_register {r : Register} (found : register name s = .ok r t) :
    r = s.memory.register name ∧
      ∀ r', memory { t with registers := t.registers.insert name r' } =
        s.memory.setRegister name r' := by
  unfold register at found
  split at found
  · rename_i r₀ there
    obtain ⟨rfl, rfl⟩ := EStateM.Result.ok.inj found
    have same : s.memory.register? name = some r₀ := there
    exact ⟨by rw [Memory.register, same]; rfl, fun r' => memory_insert_register name r' s⟩
  · rename_i missing
    obtain ⟨rfl, rfl⟩ := EStateM.Result.ok.inj found
    have none : s.memory.register? name = none := missing
    refine ⟨by rw [Memory.register, none]; rfl, fun r' => ?_⟩
    rw [memory_insert_register, memory_insert_register]
    simp only [Memory.setRegister, Memory.mk.injEq, and_true]
    funext n
    by_cases here : n = name
    · rw [if_pos here, if_pos here]
    · rw [if_neg here, if_neg here, if_neg here]

end Store

namespace Instruction

open Store

variable {s t : Store} {name : Text} {response : Response}

/-- The instructions that write to a register or an array. -/
def writes : Instruction → Bool
  | store | restore | save | storeElement => true
  | _ => false

theorem keeps_memory_popInt (rule : Text) : Keeps memory (popInt rule) :=
  .bind keeps_memory_pop fun _ => .part (keeps_attempt _)

theorem keeps_memory_pushInt (n : Int) : Keeps memory (pushInt n) :=
  .bind (keeps_memory_push _) fun _ => .pure _

theorem keeps_memory_performOperator (op : Operator) : Keeps memory (performOperator op) :=
  .bind keeps_memory_pop fun _ => .bind keeps_memory_pop fun _ =>
    .bind (.part (keeps_attempt _)) fun _ => .bind (keeps_memory_push _) fun _ => .pure _

theorem keeps_memory_performDivMod : Keeps memory performDivMod :=
  .bind keeps_memory_pop fun _ => .bind keeps_memory_pop fun _ =>
    .bind (.part (keeps_attempt _)) fun (_, _) => .bind (keeps_memory_push _) fun _ =>
      .bind (keeps_memory_push _) fun _ => .pure _

theorem keeps_memory_performCompare (r : Relation) (turned : Bool) :
    Keeps memory (performCompare r turned) :=
  .bind keeps_memory_pop fun _ => .bind keeps_memory_pop fun _ =>
    .bind (.part (keeps_attempt _)) fun _ => .pure _

theorem keeps_memory_performSwap : Keeps memory performSwap :=
  .bind keeps_memory_pop fun _ => .bind keeps_memory_pop fun _ =>
    .bind (keeps_memory_push _) fun _ => .bind (keeps_memory_push _) fun _ => .pure _

theorem keeps_memory_performDump : Keeps memory performDump := by
  refine .bind keeps_memory_pop fun v => ?_
  cases v with
  | text => exact .pure _
  | int | float => exact .bind (.part (keeps_attempt _)) fun _ => .pure _

/-- An instruction that reads an integer, checks it and writes it down elsewhere. -/
theorem keeps_memory_set {rule : Text} {p : Int → Prop} [DecidablePred p]
    {f : (n : Int) → p n → Store → Store} {r : Response} {failure : Int → Failure}
    (apart : ∀ n h s, (f n h s).memory = s.memory) :
    Keeps memory (do
      let n ← popInt rule
      if h : p n then
        update (f n h)
        return r
      else fail (failure n)) :=
  .bind (keeps_memory_popInt _) fun n => by
    split
    · exact .bind (apart n _) fun _ => .pure _
    · exact .part fun _ => rfl

theorem keeps_memory_performFetchElement (name : Text) : Keeps memory (performFetchElement name) :=
  .bind (keeps_memory_popInt _) fun _ => .bind (.part (keeps_existingArray name)) fun _ =>
    .bind (.part (keeps_attempt _)) fun _ => .bind (keeps_memory_push _) fun _ => .pure _

/-- An instruction that does not write keeps what is remembered. -/
theorem keeps_memory_perform (next : Option Text) (turned : Bool) {i : Instruction}
    (reads : i.writes = false) : Keeps memory (i.perform next turned) := by
  cases i with
  | store | restore | save | storeElement => cases reads
  | blank | comment | numeral | string | call => exact .pure _
  | bang => exact .ite (.pure _) (.pure _)
  | unimplemented => exact .part fun _ => rfl
  | operate op => exact keeps_memory_performOperator op
  | divMod => exact keeps_memory_performDivMod
  | compare r => exact keeps_memory_performCompare r turned
  | squareRoot | character =>
    exact .bind keeps_memory_pop fun _ => .bind (.part (keeps_attempt _)) fun _ =>
      .bind (keeps_memory_push _) fun _ => .pure _
  | clear | quit => exact .bind (fun _ => rfl) fun _ => .pure _
  | duplicate =>
    exact .bind (.part keeps_top) fun _ => .bind (keeps_memory_push _) fun _ => .pure _
  | swap => exact keeps_memory_performSwap
  | depth | inputBase | outputBase | scale =>
    exact .bind (fun _ => rfl) fun _ => keeps_memory_pushInt _
  | length =>
    exact .bind keeps_memory_pop fun _ => .bind (fun _ => rfl) fun _ => keeps_memory_pushInt _
  | scaleOf =>
    exact .bind keeps_memory_pop fun _ => .ite (.part fun _ => rfl) (keeps_memory_pushInt 0)
  | printTop => exact .bind (.part keeps_top) fun _ => .pure _
  | printPop => exact .bind keeps_memory_pop fun _ => .pure _
  | printAll => exact .bind (fun _ => rfl) fun _ => .pure _
  | dump => exact keeps_memory_performDump
  | setInputBase | setOutputBase | setScale | quitLevels =>
    exact keeps_memory_set fun _ _ _ => rfl
  | load =>
    exact .bind (.part (keeps_existingRegister _)) fun _ =>
      .bind (keeps_memory_push _) fun _ => .pure _
  | fetchElement => exact keeps_memory_performFetchElement _

/-- A value is taken and kept in a register, as part of what `change` makes of the register. -/
theorem memory_keeping (change : Value → Register → Register)
    (performed : (do
      let v ← pop
      let r ← register name
      setRegister name (change v r)
      return ({ action := .skipName } : Response)) s = .ok response t) :
    ∃ v rest, s.stack = v :: rest ∧
      t.memory = s.memory.setRegister name (change v (s.memory.register name)) := by
  obtain ⟨v, s₁, popped, performed⟩ := bind_eq_ok.mp performed
  obtain ⟨r, s₂, found, performed⟩ := bind_eq_ok.mp performed
  obtain ⟨rest, stack⟩ := stack_of_pop popped
  have kept := keeps_memory_pop.of_ok popped
  obtain ⟨rfl, written⟩ := memory_of_register found
  cases performed
  exact ⟨v, rest, stack, kept ▸ written _⟩

theorem memory_performStore (performed : performStore name s = .ok response t) :
    ∃ v rest, s.stack = v :: rest ∧
      t.memory = s.memory.setRegister name { s.memory.register name with value := v } :=
  memory_keeping (fun v r => { r with value := v }) performed

theorem memory_performSave (performed : performSave name s = .ok response t) :
    ∃ v rest, s.stack = v :: rest ∧
      t.memory = s.memory.setRegister name ((s.memory.register name).save v) :=
  memory_keeping (fun v r => r.save v) performed

theorem memory_performRestore (performed : performRestore name s = .ok response t) :
    ∃ r, s.memory.register? name = some r ∧ t.stack = r.value :: s.stack ∧
      t.memory = s.memory.setRegister name r.restore := by
  obtain ⟨r, s₁, found, performed⟩ := bind_eq_ok.mp performed
  unfold existingRegister at found
  split at found
  · rename_i r' there
    obtain ⟨rfl, rfl⟩ := EStateM.Result.ok.inj found
    cases performed
    exact ⟨r', there, rfl, memory_insert_register name _ _⟩
  · cases found

theorem memory_performStoreElement (performed : performStoreElement name s = .ok response t) :
    ∃ index v rest n, s.stack = index :: v :: rest ∧ index.toInt ':' = .ok n ∧
      t.memory = s.memory.setElement name n v := by
  rw [performStoreElement_eq] at performed
  split at performed
  · cases performed
  · rename_i index rest stack
    split at performed
    · cases performed
    · rename_i n read
      split at performed
      · cases performed
      · rename_i v rest
        split at performed
        · cases performed
        · obtain ⟨-, rfl⟩ := EStateM.Result.ok.inj performed
          refine ⟨index, v, rest, n, stack, read, ?_⟩
          have elements : ((s.arrays.find? name).getD {} : Cells) =
              ((s.arraysWith name).find? name).getD {} := by
            unfold arraysWith
            cases found : s.arrays.find? name with
            | some cells => simp only [found]
            | none => simp
          rw [elements, ← memory_with_array name s]
          exact memory_insert_element name n v { s with arrays := s.arraysWith name }

end Instruction

end DeskCalculator
