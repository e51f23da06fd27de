import DeskCalculator.Proofs.Machine.Views

/-!
What an instruction that fails has done by then. It takes its operands and checks them before it
writes anything, and it writes before it can fail no more than this: a store into an array that is
named for the first time makes the array, even if the index is refused. So wherever an instruction
breaks off, no more than two values are missing from the stack, and nothing else has changed. That
goes for what is printed too, since an instruction that prints writes nothing.
-/

namespace DeskCalculator

namespace Store

/-- `t` is `s` without the upper `k` values of its stack. -/
def Drawn (k : Nat) (s t : Store) : Prop :=
  k ≤ s.stack.length ∧ t = { s with stack := s.stack.drop k }

theorem Drawn.refl (s : Store) : Drawn 0 s s := ⟨Nat.zero_le _, rfl⟩

theorem Drawn.trans {j k : Nat} {s t u : Store} (h : Drawn j s t) (h' : Drawn k t u) :
    Drawn (j + k) s u := by
  obtain ⟨enough, rfl⟩ := h
  obtain ⟨enough', rfl⟩ := h'
  simp only [List.length_drop] at enough'
  refine ⟨by omega, ?_⟩
  simp only [List.drop_drop]

/-- A result that draws no more than `k` values from `s` where it breaks off: it is a failure, or it
has something to be printed. -/
def Sparing (k : Nat) (s : Store) : EStateM.Result Failure Store Response → Prop
  | .ok response t => response.prints ≠ [] → ∃ j ≤ k, Drawn j s t
  | .error _ t => ∃ j ≤ k, Drawn j s t

theorem Sparing.after {j k : Nat} {s t : Store} (drawn : Drawn j s t)
    {r : EStateM.Result Failure Store Response} (h : Sparing k t r) : Sparing (k + j) s r := by
  have further {u : Store} (left : ∃ i ≤ k, Drawn i t u) : ∃ i ≤ k + j, Drawn i s u := by
    obtain ⟨i, le, drawn'⟩ := left
    exact ⟨j + i, by omega, drawn.trans drawn'⟩
  cases r with
  | ok response u =>
    intro printing
    exact further (h printing)
  | error failure u => exact further h

section calculating
variable {α : Type}

/-- A calculation that cannot fail. -/
def Sure (c : Calculation α) : Prop := ∀ s, ∃ a t, c s = .ok a t

theorem sure_update (f : Store → Store) : Sure (update f) := fun s => ⟨(), f s, rfl⟩

theorem sure_register (name : Text) : Sure (register name) := by
  intro s
  unfold register
  cases s.registers.find? name with
  | none => exact ⟨_, _, rfl⟩
  | some r => exact ⟨_, _, rfl⟩

theorem keeps_attempt (r : Except Failure α) : Keeps id (attempt r) := by
  intro s
  cases r <;> rfl

theorem keeps_top : Keeps id top := by
  intro s
  unfold top
  cases s.stack <;> rfl

theorem keeps_existingRegister (name : Text) : Keeps id (existingRegister name) := by
  intro s
  unfold existingRegister
  cases s.registers.find? name <;> rfl

theorem keeps_existingArray (name : Text) : Keeps id (existingArray name) := by
  intro s
  unfold existingArray
  cases s.arrays.find? name <;> rfl

end calculating

end Store

namespace Instruction

open Store

/-- What draws no more than `k` values where it breaks off. -/
def Spares (k : Nat) (c : Calculation Response) : Prop := ∀ s, Sparing k s (c s)

/-- What can neither fail nor have anything to be printed. -/
def Settles (c : Calculation Response) : Prop := ∀ s, ∃ r t, c s = .ok r t ∧ r.prints = []

section calculating
variable {α : Type} {k : Nat} {g : α → Calculation Response}

theorem Settles.bind {x : Calculation α} (hx : Sure x) (hg : ∀ a, Settles (g a)) :
    Settles (x >>= g) := by
  intro s
  obtain ⟨a, t, answered⟩ := hx s
  rw [bind_ok answered]
  exact hg a t

theorem Settles.pure {r : Response} (silent : r.prints = []) :
    Settles (Pure.pure r : Calculation Response) :=
  fun s => ⟨r, s, rfl, silent⟩

theorem Settles.spares {c : Calculation Response} (h : Settles c) : Spares k c := by
  intro s
  obtain ⟨r, t, answered, silent⟩ := h s
  rw [answered]
  intro printing
  exact absurd silent printing

theorem spares_pure (r : Response) : Spares k (Pure.pure r : Calculation Response) :=
  fun s _ => ⟨0, Nat.zero_le k, .refl s⟩

theorem spares_fail (failure : Failure) : Spares k (fail failure) :=
  fun s => ⟨0, Nat.zero_le k, .refl s⟩

theorem Spares.ite {p : Prop} [Decidable p] {c c' : Calculation Response} (h : Spares k c)
    (h' : Spares k c') : Spares k (if p then c else c') := by
  split
  · exact h
  · exact h'

/-- What looks at the store draws nothing from it. -/
theorem Spares.looking {x : Calculation α} (hx : Keeps id x) (hg : ∀ a, Spares k (g a)) :
    Spares k (x >>= g) := by
  intro s
  have same := hx s
  rw [bind_apply]
  cases answered : x s with
  | error failure t =>
    obtain rfl : t = s := by simpa [answered, leftState] using same
    exact ⟨0, Nat.zero_le k, .refl t⟩
  | ok a t =>
    obtain rfl : t = s := by simpa [answered, leftState] using same
    exact hg a t

theorem Spares.popping {g : Value → Calculation Response} (hg : ∀ v, Spares k (g v)) :
    Spares (k + 1) (pop >>= g) := by
  intro s
  rw [bind_apply]
  unfold pop
  cases stack : s.stack with
  | nil => exact ⟨0, Nat.zero_le _, .refl s⟩
  | cons v rest =>
    have drawn : Drawn 1 s { s with stack := rest } := by simp [Drawn, stack]
    exact (hg v _).after drawn

theorem Spares.poppingInt {rule : Text} {g : Int → Calculation Response}
    (hg : ∀ n, Spares k (g n)) : Spares (k + 1) (popInt rule >>= g) := by
  have parts : popInt rule >>= g = pop >>= fun v => attempt (v.toInt rule) >>= g := by
    rw [popInt, bind_assoc]
  rw [parts]
  exact .popping fun v => .looking (keeps_attempt _) hg

end calculating

theorem settles_pushInt (n : Int) : Settles (pushInt n) :=
  .bind (sure_update _) fun _ => .pure rfl

theorem spares_performOperator (op : Operator) : Spares 2 (performOperator op) :=
  .popping fun _ => .popping fun _ => .looking (keeps_attempt _) fun _ =>
    (Settles.bind (sure_update _) fun _ => .pure rfl).spares

theorem spares_performDivMod : Spares 2 performDivMod :=
  .popping fun _ => .popping fun _ => .looking (keeps_attempt _) fun (_, _) =>
    (Settles.bind (sure_update _) fun _ => .bind (sure_update _) fun _ => .pure rfl).spares

theorem spares_performCompare (r : Relation) (turned : Bool) : Spares 2 (performCompare r turned) :=
  .popping fun _ => .popping fun _ => .looking (keeps_attempt _) fun _ => spares_pure _

theorem spares_performSwap : Spares 2 performSwap :=
  .popping fun _ => .popping fun _ =>
    (Settles.bind (sure_update _) fun _ => .bind (sure_update _) fun _ => .pure rfl).spares

theorem spares_performDump : Spares 2 performDump := by
  apply Spares.popping
  intro v
  cases v with
  | text => exact spares_pure _
  | int | float => exact .looking (keeps_attempt _) fun _ => spares_pure _

theorem spares_performScaleOf : Spares 2 performScaleOf :=
  .popping fun _ => .ite (spares_fail _) (settles_pushInt 0).spares

/-- An instruction that reads an integer, checks it and writes it down. -/
theorem spares_set {rule : Text} {p : Int → Prop} [DecidablePred p]
    {f : (n : Int) → p n → Store → Store} {r : Response} {failure : Int → Failure} (silent : r.prints = []) :
    Spares 2 (do
      let n ← popInt rule
      if h : p n then
        update (f n h)
        return r
      else fail (failure n)) :=
  .poppingInt fun n => by
    split
    · exact (Settles.bind (sure_update _) fun _ => .pure silent).spares
    · exact spares_fail _

theorem settles_keeping (name : Text) (change : Register → Register) :
    Settles (do
      let r ← register name
      setRegister name (change r)
      return { action := .skipName }) :=
  .bind (sure_register name) fun _ => .bind (sure_update _) fun _ => .pure rfl

theorem spares_performFetchElement (name : Text) : Spares 2 (performFetchElement name) :=
  .poppingInt fun _ => .looking (keeps_existingArray name) fun _ =>
    .looking (keeps_attempt _) fun _ => (Settles.bind (sure_update _) fun _ => .pure rfl).spares

/-- Only a store into an array may have written something where it breaks off. -/
theorem spares_perform (next : Option Text) (turned : Bool) {i : Instruction}
    (other : i ≠ storeElement) : Spares 2 (i.perform next turned) := by
  cases i with
  | storeElement => exact absurd rfl other
  | blank | comment | numeral | string | call => exact spares_pure _
  | bang => exact .ite (spares_pure _) (spares_pure _)
  | unimplemented => exact spares_fail _
  | operate op => exact spares_performOperator op
  | divMod => exact spares_performDivMod
  | compare r => exact spares_performCompare r turned
  | squareRoot | character =>
    exact .popping fun _ => .looking (keeps_attempt _) fun _ =>
      (Settles.bind (sure_update _) fun _ => .pure rfl).spares
  | clear | quit => exact (Settles.bind (sure_update _) fun _ => .pure rfl).spares
  | duplicate =>
    exact .looking keeps_top fun _ => (Settles.bind (sure_update _) fun _ => .pure rfl).spares
  | swap => exact spares_performSwap
  | depth | inputBase | outputBase | scale =>
    exact .looking (fun _ => rfl) fun _ => (settles_pushInt _).spares
  | length =>
    exact .popping fun _ => .looking (fun _ => rfl) fun _ => (settles_pushInt _).spares
  | scaleOf => exact spares_performScaleOf
  | printTop => exact .looking keeps_top fun _ => spares_pure _
  | printPop => exact .popping fun _ => spares_pure _
  | printAll => exact .looking (fun _ => rfl) fun _ => spares_pure _
  | dump => exact spares_performDump
  | setInputBase | setOutputBase | setScale | quitLevels => exact spares_set rfl
  | load =>
    exact .looking (keeps_existingRegister _) fun _ =>
      (Settles.bind (sure_update _) fun _ => .pure rfl).spares
  | store => exact .popping fun v => (settles_keeping _ fun r => { r with value := v }).spares
  | save => exact .popping fun v => (settles_keeping _ fun r => r.save v).spares
  | restore =>
    exact .looking (keeps_existingRegister _) fun _ =>
      (Settles.bind (sure_update _) fun _ => .bind (sure_update _) fun _ => .pure rfl).spares
  | fetchElement => exact spares_performFetchElement _

end Instruction

/-- The arrays, with one called `name` among them. -/
def Store.arraysWith (name : Text) (s : Store) : Table Text Cells :=
  match s.arrays.find? name with
  | some _ => s.arrays
  | none => s.arrays.insert name {}

theorem Store.array_eq (name : Text) (s : Store) :
    array name s = .ok ((s.arrays.find? name).getD {}) { s with arrays := s.arraysWith name } := by
  unfold array arraysWith
  cases s.arrays.find? name <;> rfl

namespace Instruction

open Store

/-- The array is made before the index is checked. -/
theorem performStoreElement_eq (name : Text) (s : Store) :
    performStoreElement name s =
      match s.stack with
      | [] => .error (.of .stackEmpty) s
      | index :: rest =>
        match index.toInt ':' with
        | .error failure => .error failure { s with stack := rest }
        | .ok n =>
          match rest with
          | [] => .error (.of .stackEmpty) { s with stack := [] }
          | v :: rest =>
            if n < 0 then
              .error (.of (.negativeIndex n)) { s with stack := rest, arrays := s.arraysWith name }
            else .ok { action := .skipName }
              { s with
                stack := rest
                arrays := (s.arraysWith name).insert name
                  (((s.arrays.find? name).getD {}).insert n v) } := by
  simp only [performStoreElement, popInt, bind_apply, array_eq]
  cases stack : s.stack with
  | nil => simp only [pop, stack]
  | cons index rest =>
    cases read : index.toInt ':' with
    | error failure => simp only [pop, attempt, stack, read]
    | ok n =>
      cases rest with
      | nil => simp only [pop, attempt, stack, read]
      | cons v rest =>
        simp only [pop, attempt, stack, read, Cells.store]
        by_cases negative : n < 0
        · simp only [if_pos negative]
          rfl
        · simp only [if_neg negative]
          rfl

theorem silent_performStoreElement (name : Text) :
    Answers (fun response => response.prints = []) (performStoreElement name) :=
  .bind fun _ => .bind fun _ => .bind fun _ => .bind fun _ => .bind fun _ => .pure rfl

end Instruction

namespace Store

open Instruction

/-- What the instruction `ch` may have changed in `s` where it breaks off at `t`: up to two values are
missing from the stack, and a store at an index below zero may have made an array. -/
structure Spared (ch : CodePoint) (next : Option Text) (s t : Store) : Prop where
  stack : ∃ k ≤ 2, k ≤ s.stack.length ∧ t.stack = s.stack.drop k
  registers : t.registers = s.registers
  inputBase : t.inputBase = s.inputBase
  outputBase : t.outputBase = s.outputBase
  scale : t.scale = s.scale
  unwind : t.unwind = s.unwind
  arrays : t.arrays = s.arrays ∨
    ch = .scalar ':' ∧ (∃ index ∈ s.stack.head?, ∃ n < 0, index.toInt ':' = .ok n) ∧
      s.arrays.find? (nameOf next) = none ∧ t.arrays = s.arrays.insert (nameOf next) {}

variable {ch : CodePoint} {next : Option Text} {turned : Bool} {s t : Store}

theorem Drawn.spared {k : Nat} (h : Drawn k s t) (le : k ≤ 2) : Spared ch next s t := by
  obtain ⟨enough, rfl⟩ := h
  exact {
    stack := ⟨k, le, enough, rfl⟩
    registers := rfl
    inputBase := rfl
    outputBase := rfl
    scale := rfl
    unwind := rfl
    arrays := .inl rfl }

theorem spared_performStoreElement {failure : Failure}
    (failed : performStoreElement (nameOf next) s = .error failure t) :
    Spared (.scalar ':') next s t := by
  rw [performStoreElement_eq] at failed
  split at failed
  · cases failed
    exact (Drawn.refl s).spared (by omega)
  · rename_i index rest stack
    split at failed
    · cases failed
      have drawn : Drawn 1 s { s with stack := rest } := by simp [Drawn, stack]
      exact drawn.spared (by omega)
    · rename_i n read
      split at failed
      · cases failed
        have drawn : Drawn 1 s { s with stack := [] } := by simp [Drawn, stack]
        exact drawn.spared (by omega)
      · rename_i v rest
        split at failed
        · rename_i negative
          obtain ⟨-, rfl⟩ := EStateM.Result.error.inj failed
          have two : Drawn 2 s { s with stack := rest } := by simp [Drawn, stack]
          have spared : Spared (.scalar ':') next s { s with stack := rest } :=
            two.spared (Nat.le_refl 2)
          refine { spared with arrays := ?_ }
          cases found : s.arrays.find? (nameOf next) with
          | some cells => exact .inl (by simp only [arraysWith, found])
          | none =>
            refine .inr ⟨rfl, ⟨index, by simp [stack], n, negative, read⟩, rfl, ?_⟩
            simp only [arraysWith, found]
        · cases failed

end Store

namespace Overrides

open Store

variable {ch : CodePoint} {next : Option Text} {turned : Bool} {s t : Store}

/-- A built-in instruction spares the store where it fails, and where it has something to be
printed. -/
theorem spared_builtIn (ch : CodePoint) (next : Option Text) (turned : Bool) (s : Store) :
    match Overrides.perform {} [ch] next turned s with
    | .ok response t => response.prints ≠ [] → Spared ch next s t
    | .error _ t => Spared ch next s t := by
  rw [builtIn_perform]
  by_cases missing : (Instruction.ofName [ch]).needsName ∧ next = none
  · rw [if_pos missing]
    exact (Drawn.refl s).spared (by omega)
  · rw [if_neg missing]
    by_cases storing : Instruction.ofName [ch] = .storeElement
    · obtain rfl := Instruction.eq_of_sign? storing rfl
      change match
          (match Instruction.performStoreElement (Instruction.nameOf next) s with
          | .ok response s => .ok response s
          | .error failure s => .error (failure.ascribe [.scalar ':']) s :
            EStateM.Result Failure Store Response) with
        | .ok response t => response.prints ≠ [] → Spared (.scalar ':') next s t
        | .error _ t => Spared (.scalar ':') next s t
      cases performed : Instruction.performStoreElement (Instruction.nameOf next) s with
      | error failure t => exact spared_performStoreElement performed
      | ok response t =>
        intro printing
        exact absurd (Instruction.silent_performStoreElement _ _ _ _ performed) printing
    · have spares := Instruction.spares_perform next turned storing s
      cases performed : (Instruction.ofName [ch]).perform next turned s with
      | error failure t =>
        rw [performed] at spares
        obtain ⟨k, le, drawn⟩ := spares
        exact drawn.spared le
      | ok response t =>
        rw [performed] at spares
        intro printing
        obtain ⟨k, le, drawn⟩ := spares printing
        exact drawn.spared le

end Overrides

namespace Machine

open Store

/-- Performs the instruction called `name`, and prints what it prints in some way. -/
def performWith (printer : Print → Activity Unit) (name : Text) (next : Option Text)
    (turned : Bool) : Activity Action := do
  let response ← respond name next turned
  ascribing name (response.prints.forM printer)
  return response.action

variable {printer : Print → Activity Unit} {m m' : Machine}

theorem printAll_eq (host : Host) (prints : List Print) :
    printAll host prints = prints.forM (print host) := by
  induction prints with
  | nil => rfl
  | cons p rest ih =>
    rw [printAll, ih]
    rfl

theorem perform_eq (host : Host) : perform host = performWith (print host) := by
  funext name next turned
  simp only [perform, performWith, printAll_eq]

theorem keeps_forM (aloof : ∀ p, Keeps Machine.store (printer p)) (prints : List Print) :
    Keeps Machine.store (prints.forM printer) := by
  induction prints with
  | nil => exact .pure _
  | cons p rest ih => exact .bind (aloof p) fun _ => ih

/-- A built-in instruction that fails, or whose printing fails, has taken at most two values from the
stack and changed nothing else, but that a store at an index below zero may have made an array. Where
the name is missing that has to follow it, nothing at all has changed. The machine prints with its
host, which is one way of printing that keeps away from the store. -/
theorem failure_spares (ch : CodePoint) (next : Option Text) (turned : Bool)
    (builtIn : m.overrides = {}) :
    (∀ printer : Print → Activity Unit, (∀ p, Keeps Machine.store (printer p)) →
      ∀ failure m', performWith printer [ch] next turned m = .error failure m' →
        m.store.Spared ch next m'.store ∧
        ((Instruction.ofName [ch]).needsName → next = none →
          m' = m ∧ failure = .fault ⟨.missingName [ch], some [ch]⟩)) ∧
    ∀ host, perform host = performWith (print host) ∧ ∀ p, Keeps Machine.store (print host p) := by
  constructor
  · intro printer aloof failure m' failed
    have responded : respond [ch] next turned m =
        onStore (Overrides.perform {} [ch] next turned) m := by
      rw [respond, builtIn]
    have spared := Overrides.spared_builtIn ch next turned m.store
    obtain refused | ⟨response, m₁, answered, rest⟩ := bind_eq_error.mp failed
    · rw [responded, onStore] at refused
      cases performed : Overrides.perform {} [ch] next turned m.store with
      | ok response t => simp [performed] at refused
      | error failure' t =>
        rw [performed] at refused spared
        obtain ⟨rfl, rfl⟩ := EStateM.Result.error.inj refused
        refine ⟨spared, fun needs missing => ?_⟩
        rw [Overrides.builtIn_perform, if_pos ⟨needs, missing⟩] at performed
        obtain ⟨rfl, rfl⟩ := EStateM.Result.error.inj performed
        exact ⟨rfl, rfl⟩
    · rw [responded, onStore] at answered
      cases performed : Overrides.perform {} [ch] next turned m.store with
      | error failure' t => simp [performed] at answered
      | ok response' t =>
        rw [performed] at answered spared
        obtain ⟨rfl, rfl⟩ := EStateM.Result.ok.inj answered
        obtain broken | ⟨-, m₂, -, returned⟩ := bind_eq_error.mp rest
        · have kept := (keeps_ascribing [ch] (keeps_forM aloof response'.prints)).of_error broken
          have printing : response'.prints ≠ [] := by
            intro silent
            rw [silent] at broken
            cases broken
          refine ⟨kept ▸ spared printing, fun needs missing => ?_⟩
          rw [Overrides.builtIn_perform, if_pos ⟨needs, missing⟩] at performed
          cases performed
        · cases returned
  · intro host
    exact ⟨perform_eq host, keeps_print (fun _ _ => rfl) host⟩

/-- A store at the index -1 of an array that there is not yet. -/
theorem failure_spares_negative_index :
    let m : Machine := { store := { stack := [.int (-1), .int 7, .int 5] } }
    let next := some (Text.ofString "a")
    ∃ failure m', performWith (print {}) [.scalar ':'] next false m = .error failure m' ∧
      m.store.Spared (.scalar ':') next m'.store ∧ m'.store.stack = [.int 5] ∧
      m'.store.arrays = m.store.arrays.insert (Text.ofString "a") {} := by
  intro m next
  obtain ⟨spares, hosts⟩ := failure_spares (m := m) (.scalar ':') next false rfl
  have left : (match performWith (print {}) [.scalar ':'] next false m with
      | .ok _ _ => none
      | .error _ m' => some (m'.store.stack, m'.store.arrays)) =
        some ([.int 5], m.store.arrays.insert (Text.ofString "a") {}) := by
    decide +kernel
  cases failed : performWith (print {}) [.scalar ':'] next false m with
  | ok action m' =>
    rw [failed] at left
    cases left
  | error failure m' =>
    rw [failed] at left
    obtain ⟨stack, arrays⟩ := Prod.mk.inj (Option.some.inj left)
    exact ⟨failure, m', rfl, (spares _ (hosts {}).2 _ _ failed).1, stack, arrays⟩

end Machine

end DeskCalculator
