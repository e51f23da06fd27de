import DeskCalculator.Instruction.Perform
import DeskCalculator.Proofs.Activity

/-!
Valid stores: the bases, the scale and the levels are in their ranges, indices are not negative, and
registers and arrays have names of one character. Every instruction leaves a valid store valid, also
where it fails half-way.
-/

namespace DeskCalculator

namespace Table

variable {κ ν : Type} [DecidableEq κ]

theorem mem_of_lookup? {k : κ} {v : ν} {entries : List (κ × ν)} (h : lookup? k entries = some v) :
    (k, v) ∈ entries := by
  induction entries with
  | nil => cases h
  | cons entry rest ih =>
    rw [lookup?] at h
    split at h
    · cases h
      simp [*]
    · exact List.mem_cons_of_mem _ (ih h)

theorem mem_insertEntry [Ord κ] {k : κ} {v : ν} {entry : κ × ν} {entries : List (κ × ν)}
    (h : entry ∈ insertEntry k v entries) : entry = (k, v) ∨ entry ∈ entries := by
  fun_induction insertEntry k v entries with grind

end Table

/-- The registers and the arrays are given as entries, so what holds of them holds of everything that
a listing of the store shows. -/
structure Store.Valid (s : Store) : Prop where
  inputBase : 2 ≤ s.inputBase ∧ s.inputBase ≤ 16
  outputBase : 2 ≤ s.outputBase
  scale : 0 ≤ s.scale
  unwind : 0 ≤ s.unwind
  registers : ∀ entry ∈ s.registers.entries, entry.1.length = 1
  arrays : ∀ entry ∈ s.arrays.entries, entry.1.length = 1 ∧ ∀ cell ∈ entry.2.entries, 0 ≤ cell.1

namespace Store

variable {α : Type} {name : Text}

theorem valid_empty : Valid {} where
  inputBase := by decide
  outputBase := by decide
  scale := by decide
  unwind := by decide
  registers := by simp
  arrays := by simp

namespace Valid

theorem withStack {s : Store} (h : s.Valid) (stack : List Value) : Valid { s with stack } where
  inputBase := h.inputBase
  outputBase := h.outputBase
  scale := h.scale
  unwind := h.unwind
  registers := h.registers
  arrays := h.arrays

theorem withUnwind {s : Store} (h : s.Valid) {unwind : Int} (nonneg : 0 ≤ unwind) :
    Valid { s with unwind } where
  inputBase := h.inputBase
  outputBase := h.outputBase
  scale := h.scale
  unwind := nonneg
  registers := h.registers
  arrays := h.arrays

theorem withRegister {s : Store} (h : s.Valid) (named : name.length = 1) (r : Register) :
    Valid { s with registers := s.registers.insert name r } where
  inputBase := h.inputBase
  outputBase := h.outputBase
  scale := h.scale
  unwind := h.unwind
  registers := by
    intro entry mem
    obtain rfl | mem := Table.mem_insertEntry mem
    · exact named
    · exact h.registers entry mem
  arrays := h.arrays

theorem withArray {s : Store} (h : s.Valid) (named : name.length = 1) {cells : Cells}
    (indices : ∀ cell ∈ cells.entries, 0 ≤ cell.1) :
    Valid { s with arrays := s.arrays.insert name cells } where
  inputBase := h.inputBase
  outputBase := h.outputBase
  scale := h.scale
  unwind := h.unwind
  registers := h.registers
  arrays := by
    intro entry mem
    obtain rfl | mem := Table.mem_insertEntry mem
    · exact ⟨named, indices⟩
    · exact h.arrays entry mem

end Valid

theorem Cells.indices_store {cells cells' : Cells} {index : Int} {v : Value}
    (indices : ∀ cell ∈ cells.entries, 0 ≤ cell.1) (stored : cells.store index v = .ok cells') :
    ∀ cell ∈ cells'.entries, 0 ≤ cell.1 := by
  rw [Cells.store] at stored
  split at stored
  · cases stored
  · cases stored
    intro cell mem
    obtain rfl | mem := Table.mem_insertEntry mem
    · simpa using ‹¬ index < 0›
    · exact indices cell mem

theorem upholds_attempt (r : Except Failure α) :
    Upholds Valid (fun a => r = .ok a) (attempt r) := by
  intro s valid
  cases r with
  | ok a =>
    refine ⟨valid, fun b s' answered => ?_⟩
    cases answered
    rfl
  | error failure => exact ⟨valid, fun b s' answered => by cases answered⟩

theorem upholds_fail {Q : α → Prop} (failure : Failure) : Upholds Valid Q (fail failure) :=
  fun _ valid => ⟨valid, fun _ _ answered => by cases answered⟩

theorem upholds_read (f : Store → α) : Preserves Valid (read f) :=
  fun _ valid => ⟨valid, fun _ _ _ => trivial⟩

theorem upholds_update {f : Store → Store} (h : ∀ s, Valid s → Valid (f s)) :
    Preserves Valid (update f) :=
  fun s valid => ⟨h s valid, fun _ _ _ => trivial⟩

theorem upholds_push (v : Value) : Preserves Valid (push v) :=
  upholds_update fun _ valid => valid.withStack _

theorem upholds_pop : Preserves Valid pop := by
  intro s valid
  refine ⟨?_, fun _ _ _ => trivial⟩
  unfold pop
  split
  · exact valid
  · exact valid.withStack _

theorem upholds_top : Preserves Valid top := by
  intro s valid
  refine ⟨?_, fun _ _ _ => trivial⟩
  unfold top
  split
  · exact valid
  · exact valid

theorem upholds_clear : Preserves Valid clear :=
  upholds_update fun _ valid => valid.withStack _

theorem upholds_register (named : name.length = 1) :
    Preserves Valid (register name) := by
  intro s valid
  refine ⟨?_, fun _ _ _ => trivial⟩
  unfold register
  split
  · exact valid
  · exact valid.withRegister named _

theorem upholds_existingRegister (name : Text) :
    Preserves Valid (existingRegister name) := by
  intro s valid
  refine ⟨?_, fun _ _ _ => trivial⟩
  unfold existingRegister
  split
  · exact valid
  · exact valid

theorem upholds_setRegister (named : name.length = 1) (r : Register) :
    Preserves Valid (setRegister name r) :=
  upholds_update fun _ valid => valid.withRegister named r

theorem upholds_array (named : name.length = 1) :
    Upholds Valid (fun cells => ∀ cell ∈ cells.entries, 0 ≤ cell.1) (array name) := by
  intro s valid
  unfold array
  split
  · refine ⟨valid, fun cells s' answered => ?_⟩
    cases answered
    exact (valid.arrays _ (Table.mem_of_lookup? ‹_›)).2
  · have none : ∀ cell ∈ ({} : Cells).entries, 0 ≤ cell.1 := by simp
    refine ⟨valid.withArray named none, fun cells s' answered => ?_⟩
    cases answered
    exact none

theorem upholds_existingArray (name : Text) :
    Preserves Valid (existingArray name) := by
  intro s valid
  refine ⟨?_, fun _ _ _ => trivial⟩
  unfold existingArray
  split
  · exact valid
  · exact valid

theorem upholds_setArray (named : name.length = 1) {cells : Cells}
    (indices : ∀ cell ∈ cells.entries, 0 ≤ cell.1) :
    Preserves Valid (setArray name cells) :=
  upholds_update fun _ valid => valid.withArray named indices

end Store

namespace Instruction

open Store

theorem upholds_pure (r : Response) :
    Preserves Valid (pure r : Calculation Response) := .pure trivial

theorem upholds_popInt (rule : Text) : Preserves Valid (popInt rule) :=
  upholds_pop.bind fun _ _ s valid => ⟨(upholds_attempt _ s valid).1, fun _ _ _ => trivial⟩

theorem upholds_pushInt (n : Int) : Preserves Valid (pushInt n) :=
  (upholds_push _).bind fun _ _ => upholds_pure _

theorem upholds_performOperator (op : Operator) :
    Preserves Valid (performOperator op) :=
  upholds_pop.bind fun _ _ => upholds_pop.bind fun _ _ => (upholds_attempt _).bind fun _ _ =>
    (upholds_push _).bind fun _ _ => upholds_pure _

theorem upholds_performDivMod : Preserves Valid performDivMod :=
  upholds_pop.bind fun _ _ => upholds_pop.bind fun _ _ => (upholds_attempt _).bind fun (_, _) _ =>
    (upholds_push _).bind fun _ _ => (upholds_push _).bind fun _ _ => upholds_pure _

theorem upholds_performCompare (r : Relation) (turned : Bool) :
    Preserves Valid (performCompare r turned) :=
  upholds_pop.bind fun _ _ => upholds_pop.bind fun _ _ => (upholds_attempt _).bind fun _ _ =>
    upholds_pure _

theorem upholds_performSwap : Preserves Valid performSwap :=
  upholds_pop.bind fun _ _ => upholds_pop.bind fun _ _ => (upholds_push _).bind fun _ _ =>
    (upholds_push _).bind fun _ _ => upholds_pure _

theorem upholds_performDump : Preserves Valid performDump := by
  refine upholds_pop.bind fun v _ => ?_
  cases v with
  | text => exact upholds_pure _
  | int | float => exact (upholds_attempt _).bind fun _ _ => upholds_pure _

theorem upholds_performSetInputBase : Preserves Valid performSetInputBase := by
  refine (upholds_popInt _).bind fun n _ =>
    .ite (fun range => (upholds_update fun s valid => ?_).bind fun _ _ => upholds_pure _)
      fun _ => upholds_fail _
  exact { valid with inputBase := range }

theorem upholds_performSetOutputBase : Preserves Valid performSetOutputBase := by
  refine (upholds_popInt _).bind fun n _ => ?_
  split
  · rename_i range
    refine (upholds_update fun s valid => ?_).bind fun _ _ => upholds_pure _
    exact { valid with outputBase := range }
  · exact upholds_fail _

theorem upholds_performSetScale : Preserves Valid performSetScale := by
  refine (upholds_popInt _).bind fun n _ =>
    .ite (fun range => (upholds_update fun s valid => ?_).bind fun _ _ => upholds_pure _)
      fun _ => upholds_fail _
  exact { valid with scale := range }

theorem upholds_performScaleOf : Preserves Valid performScaleOf :=
  upholds_pop.bind fun _ _ => .ite (fun _ => upholds_fail _) fun _ => upholds_pushInt _

theorem upholds_performQuitLevels : Preserves Valid performQuitLevels := by
  refine (upholds_popInt _).bind fun n _ =>
    .ite (fun positive => (upholds_update fun s valid => ?_).bind fun _ _ => upholds_pure _)
      fun _ => upholds_fail _
  exact valid.withUnwind (by omega)

theorem upholds_performLoad (name : Text) : Preserves Valid (performLoad name) :=
  (upholds_existingRegister _).bind fun _ _ => (upholds_push _).bind fun _ _ => upholds_pure _

theorem upholds_performRestore {name : Text} (named : name.length = 1) :
    Preserves Valid (performRestore name) :=
  (upholds_existingRegister _).bind fun _ _ => (upholds_setRegister named _).bind fun _ _ =>
    (upholds_push _).bind fun _ _ => upholds_pure _

theorem upholds_performStore {name : Text} (named : name.length = 1) :
    Preserves Valid (performStore name) :=
  upholds_pop.bind fun _ _ => (upholds_register named).bind fun _ _ =>
    (upholds_setRegister named _).bind fun _ _ => upholds_pure _

theorem upholds_performSave {name : Text} (named : name.length = 1) :
    Preserves Valid (performSave name) :=
  upholds_pop.bind fun _ _ => (upholds_register named).bind fun _ _ =>
    (upholds_setRegister named _).bind fun _ _ => upholds_pure _

theorem upholds_performStoreElement {name : Text} (named : name.length = 1) :
    Preserves Valid (performStoreElement name) :=
  (upholds_popInt _).bind fun _ _ => upholds_pop.bind fun _ _ =>
    (upholds_array named).bind fun _ indices => (upholds_attempt _).bind fun _ stored =>
      (upholds_setArray named (Cells.indices_store indices stored)).bind fun _ _ => upholds_pure _

theorem upholds_performFetchElement (name : Text) :
    Preserves Valid (performFetchElement name) :=
  (upholds_popInt _).bind fun _ _ => (upholds_existingArray _).bind fun _ _ =>
    (upholds_attempt _).bind fun _ _ => (upholds_push _).bind fun _ _ => upholds_pure _

/-- An instruction leaves a valid store valid, if the name that it needs has one character. -/
theorem upholds_perform {next : Option Text} (turned : Bool) {i : Instruction}
    (named : i.needsName → (nameOf next).length = 1) :
    Preserves Valid (i.perform next turned) := by
  cases i with
  | blank | comment | numeral | string | call => exact upholds_pure _
  | bang => exact .ite (fun _ => upholds_pure _) fun _ => upholds_pure _
  | unimplemented => exact upholds_fail _
  | operate op => exact upholds_performOperator op
  | divMod => exact upholds_performDivMod
  | compare r => exact upholds_performCompare r turned
  | squareRoot | character =>
    exact upholds_pop.bind fun _ _ => (upholds_attempt _).bind fun _ _ =>
      (upholds_push _).bind fun _ _ => upholds_pure _
  | clear => exact upholds_clear.bind fun _ _ => upholds_pure _
  | duplicate => exact upholds_top.bind fun _ _ => (upholds_push _).bind fun _ _ => upholds_pure _
  | swap => exact upholds_performSwap
  | depth | inputBase | outputBase | scale =>
    exact (upholds_read _).bind fun _ _ => upholds_pushInt _
  | length => exact upholds_pop.bind fun _ _ => (upholds_read _).bind fun _ _ => upholds_pushInt _
  | scaleOf => exact upholds_performScaleOf
  | printTop => exact upholds_top.bind fun _ _ => upholds_pure _
  | printPop => exact upholds_pop.bind fun _ _ => upholds_pure _
  | printAll => exact (upholds_read _).bind fun _ _ => upholds_pure _
  | dump => exact upholds_performDump
  | setInputBase => exact upholds_performSetInputBase
  | setOutputBase => exact upholds_performSetOutputBase
  | setScale => exact upholds_performSetScale
  | quit =>
    exact (upholds_update fun _ valid => valid.withUnwind (by decide)).bind fun _ _ =>
      upholds_pure _
  | quitLevels => exact upholds_performQuitLevels
  | load => exact upholds_performLoad _
  | store => exact upholds_performStore (named rfl)
  | restore => exact upholds_performRestore (named rfl)
  | save => exact upholds_performSave (named rfl)
  | fetchElement => exact upholds_performFetchElement _
  | storeElement => exact upholds_performStoreElement (named rfl)

end Instruction

end DeskCalculator
