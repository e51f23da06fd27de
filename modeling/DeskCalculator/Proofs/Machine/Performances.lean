import DeskCalculator.Proofs.Instruction.Memory
import DeskCalculator.Proofs.Journal

/-!
Performances: the instructions that a machine has performed without failing, each with the store before
and after it. From one to the next a machine remembers the same, whatever else it does in between:
acting, calling, returning, failing. So what it remembers depends on the performances alone.
-/

namespace DeskCalculator

/-- An instruction that has been performed, none where a stub took its place, with what followed it in
the text. -/
structure Performance where
  instruction : Option Instruction
  next : Option Text
  before : Store
  after : Store

namespace Performance

/-- The instruction did not fail, and a stub left the store as it was. -/
def Done (p : Performance) : Prop :=
  match p.instruction with
  | none => p.after = p.before
  | some i => ∃ turned response, i.perform p.next turned p.before = .ok response p.after

/-- Whether it is the instruction `i`, with `name` behind it. -/
def does (i : Instruction) (name : Text) (p : Performance) : Bool :=
  p.instruction = some i ∧ Instruction.nameOf p.next = name

variable {p : Performance} {i : Instruction} {name : Text}

theorem does_iff : p.does i name ↔ p.instruction = some i ∧ Instruction.nameOf p.next = name :=
  decide_eq_true_iff

theorem eq_of_does {j : Instruction} {name' : Text} (h : p.does i name) (h' : p.does j name') :
    i = j ∧ name = name' := by
  obtain ⟨performed, rfl⟩ := does_iff.mp h
  obtain ⟨performed', rfl⟩ := does_iff.mp h'
  exact ⟨Option.some.inj (performed.symm.trans performed'), rfl⟩

/-- A performance that does one thing does nothing else. -/
theorem not_does {j : Instruction} (does : p.does i name) (ne : i ≠ j) (name' : Text) :
    ¬ p.does j name' :=
  fun h => ne (eq_of_does does h).1

/-- What a performance writes to a register or an array, if it does. -/
inductive Writing (p : Performance) : Prop where
  | nothing (reads : ∀ i name, p.does i name → i.writes = false)
      (memory : p.after.memory = p.before.memory)
  | store {name : Text} {v : Value} (does : p.does .store name)
      (taken : p.before.stack.head? = some v)
      (memory : p.after.memory =
        p.before.memory.setRegister name { p.before.memory.register name with value := v })
  | save {name : Text} {v : Value} (does : p.does .save name)
      (taken : p.before.stack.head? = some v)
      (memory : p.after.memory =
        p.before.memory.setRegister name ((p.before.memory.register name).save v))
  | restore {name : Text} {r : Register} (does : p.does .restore name)
      (found : p.before.memory.register? name = some r)
      (pushed : p.after.stack = r.value :: p.before.stack)
      (memory : p.after.memory = p.before.memory.setRegister name r.restore)
  | storeElement {name : Text} {index v : Value} {rest : List Value} {n : Int}
      (does : p.does .storeElement name) (stack : p.before.stack = index :: v :: rest)
      (read : index.toInt ':' = .ok n)
      (memory : p.after.memory = p.before.memory.setElement name n v)

theorem Done.writing (done : p.Done) : p.Writing := by
  unfold Done at done
  cases performed : p.instruction with
  | none =>
    simp only [performed] at done
    refine .nothing (fun i name does => ?_) (congrArg Store.memory done)
    cases performed.symm.trans (does_iff.mp does).1
  | some i =>
    simp only [performed] at done
    obtain ⟨turned, response, done⟩ := done
    cases i with
    | store =>
      obtain ⟨v, rest, stack, memory⟩ := Instruction.memory_performStore done
      exact .store (does_iff.mpr ⟨performed, rfl⟩) (congrArg List.head? stack) memory
    | save =>
      obtain ⟨v, rest, stack, memory⟩ := Instruction.memory_performSave done
      exact .save (does_iff.mpr ⟨performed, rfl⟩) (congrArg List.head? stack) memory
    | restore =>
      obtain ⟨r, found, pushed, memory⟩ := Instruction.memory_performRestore done
      exact .restore (does_iff.mpr ⟨performed, rfl⟩) found pushed memory
    | storeElement =>
      obtain ⟨index, v, rest, n, stack, read, memory⟩ :=
        Instruction.memory_performStoreElement done
      exact .storeElement (does_iff.mpr ⟨performed, rfl⟩) stack read memory
    | _ =>
      refine .nothing (fun j name does => ?_)
        ((Instruction.keeps_memory_perform _ turned rfl).of_ok done)
      cases performed.symm.trans (does_iff.mp does).1
      rfl

end Performance

/-- What is remembered before and after some performances. -/
inductive Linked : Memory → List Performance → Memory → Prop where
  | nil (mem : Memory) : Linked mem [] mem
  | cons {p : Performance} {ps : List Performance} {mem : Memory} (done : p.Done)
      (linked : Linked p.after.memory ps mem) : Linked p.before.memory (p :: ps) mem

theorem Linked.append {mem mem' mem'' : Memory} {ps ps' : List Performance}
    (h : Linked mem ps mem') (h' : Linked mem' ps' mem'') : Linked mem (ps ++ ps') mem'' := by
  induction h with
  | nil => exact h'
  | cons done _ ih => exact .cons done (ih h')

/-- Whatever replaces built-in instructions, one that fails spares the store, and so does one that has
something to be printed. -/
theorem Overrides.spared (overrides : Overrides) (ch : CodePoint) (next : Option Text)
    (turned : Bool) (s : Store) :
    match overrides.perform [ch] next turned s with
    | .ok response t => response.prints ≠ [] → Store.Spared ch next s t
    | .error _ t => Store.Spared ch next s t := by
  cases found : overrides.find? [ch] with
  | none =>
    rw [perform_of_unreplaced found]
    exact spared_builtIn ch next turned s
  | some stub =>
    have untouched : Store.Spared ch next s s := (Store.Drawn.refl s).spared (by omega)
    unfold Overrides.perform
    simp only [found]
    by_cases missing : stub.needsName ∧ next = none
    · rw [if_pos missing]
      exact untouched
    · rw [if_neg missing]
      exact fun _ => untouched

namespace Machine

variable {host : Host} {calling : Calling} {m m' : Machine} {ch : CodePoint} {name source : Text}
  {next : Option Text} {turned : Bool} {limit : Nat}

theorem store_of_performed {action : Action}
    (performed : perform host name next turned m = .ok action m') :
    ∃ response, m.overrides.perform name next turned m.store = .ok response m'.store := by
  obtain ⟨response, m₁, responded, rest⟩ := bind_eq_ok.mp performed
  have printed : Keeps Machine.store (do
      ascribing name (printAll host response.prints)
      return response.action) :=
    .bind (keeps_ascribing name (keeps_printAll (fun _ _ => rfl) host _)) fun _ => .pure _
  refine ⟨response, ?_⟩
  rw [printed.of_ok rest]
  unfold respond onStore at responded
  split at responded
  · rename_i answered
    obtain ⟨rfl, rfl⟩ := EStateM.Result.ok.inj responded
    exact answered
  · cases responded

theorem memory_of_failed {failure : Failure}
    (failed : perform host [ch] next turned m = .error failure m') :
    m'.store.memory = m.store.memory := by
  have spared := m.overrides.spared ch next turned m.store
  obtain refused | ⟨response, m₁, responded, rest⟩ := bind_eq_error.mp failed
  · unfold respond onStore at refused
    split at refused
    · cases refused
    · rename_i answered
      obtain ⟨-, rfl⟩ := EStateM.Result.error.inj refused
      rw [answered] at spared
      exact spared.memory
  · unfold respond onStore at responded
    split at responded
    · rename_i answered
      obtain ⟨rfl, rfl⟩ := EStateM.Result.ok.inj responded
      rw [answered] at spared
      obtain broken | ⟨-, m₂, -, returned⟩ := bind_eq_error.mp rest
      · have kept := (keeps_ascribing [ch] (keeps_printAll (f := Machine.store) (fun _ _ => rfl)
          host _)).of_error broken
        rw [kept]
        refine (spared fun silent => ?_).memory
        rw [silent] at broken
        cases broken
      · cases returned
    · cases responded

/-- The instruction that a machine performs next, unless it fails. -/
def performed? (host : Host) (m : Machine) : Option Performance :=
  match m.frames with
  | [] => none
  | frame :: callers =>
    match frame.cursor.peek? with
    | none => none
    | some ch =>
      let next := (frame.cursor.advance 1).peek?.map ([·])
      match perform host [ch] next frame.turned (m.begun frame callers) with
      | .error _ _ => none
      | .ok _ m' =>
        some { instruction := if (m.overrides.find? [ch]).isSome then none
                 else some (Instruction.ofName [ch])
               next, before := m.store, after := m'.store }

/-- The instructions that some steps perform, in order. -/
def performances (host : Host) (calling : Calling) : Nat → Machine → List Performance
  | 0, _ => []
  | limit + 1, m =>
    (m.performed? host).toList ++
      match step host calling m with
      | .ok none m => performances host calling limit m
      | _ => []

/-- The instructions that a run performs. A run whose start is refused performs none. -/
def performancesOf (host : Host) (limit : Nat) (name source : Text) (m : Machine) :
    List Performance :=
  match emit host (.programStart source) m.cleared with
  | .error _ _ => []
  | .ok () _ => performances host .flat limit (m.started host name source)

theorem done_of_performed {p : Performance} (h : m.performed? host = some p) :
    p.before = m.store ∧ p.Done := by
  unfold performed? at h
  split at h
  · cases h
  · rename_i frame callers frames
    split at h
    · cases h
    · rename_i ch pending
      dsimp only at h
      split at h
      · cases h
      · rename_i action m' performed
        obtain ⟨response, answered⟩ := store_of_performed performed
        cases h
        refine ⟨rfl, ?_⟩
        unfold Performance.Done
        change m.overrides.perform [ch] _ frame.turned m.store = _ at answered
        cases found : m.overrides.find? [ch] with
        | some stub =>
          unfold Overrides.perform at answered
          simp only [found] at answered
          split at answered
          · cases answered
          · exact (EStateM.Result.ok.inj answered).2.symm
        | none =>
          rw [Overrides.perform_of_unreplaced found, Overrides.builtIn_perform] at answered
          split at answered
          · cases answered
          · split at answered
            · rename_i response' s' done
              obtain ⟨rfl, rfl⟩ := EStateM.Result.ok.inj answered
              exact ⟨frame.turned, _, done⟩
            · cases answered

theorem keeps_memory_onStore {α : Type} {c : Calculation α} (hc : Keeps Store.memory c) :
    Keeps (·.store.memory) (onStore c) := by
  intro m
  have kept := hc m.store
  unfold onStore
  cases answered : c m.store <;> simpa [answered, leftState] using kept

theorem keeps_memory_invoke (cursor : Cursor) (v : Value) :
    Keeps (·.store.memory) (invoke cursor v) := by
  cases v with
  | text t => exact .pure _
  | int | float =>
    exact .bind (keeps_memory_onStore (Store.keeps_memory_push _)) fun _ => .pure _

theorem keeps_memory_act (frame : Frame) (callers : List Frame) (action : Action) :
    Keeps (·.store.memory) (act host name next frame callers action) := by
  cases action with
  | proceed | skipName | quit | comment | negate => exact .pure _
  | callRegister =>
    exact .bind (keeps_memory_onStore (.part (Store.keeps_existingRegister _))) fun _ =>
      keeps_memory_invoke _ _
  | callTop =>
    exact .bind (keeps_memory_onStore Store.keeps_memory_pop) fun _ => keeps_memory_invoke _ _
  | numeral =>
    exact .bind (keeps_memory_onStore fun _ => rfl) fun _ =>
      .bind (keeps_memory_onStore (Store.keeps_memory_push _)) fun _ => .pure _
  | string => exact .bind (keeps_memory_onStore (Store.keeps_memory_push _)) fun _ => .pure _
  | command =>
    exact .bind (fun _ => rfl) fun _ => .bind (keeps_command (fun _ _ => rfl) host _) fun _ => .pure _
  | unknown =>
    unfold act
    exact keeps_memory_onStore fun _ => rfl

theorem keeps_memory_follow (frame : Frame) (callers : List Frame) (move : Move) :
    Keeps (·.store.memory) (follow calling frame callers move) := by
  cases move with
  | goOn | call => exact .bind (fun _ => rfl) fun _ => .pure _
  | quit =>
    intro m
    change (leftState (quit frame callers m)).store.memory = m.store.memory
    unfold quit
    split <;> rfl

/-- After a step a machine remembers what it did before, or what the instruction that has been
performed left. -/
theorem memory_of_step (host : Host) (calling : Calling) (m : Machine) :
    (leftState (step host calling m)).store.memory =
      ((m.performed? host).map (·.after.memory)).getD m.store.memory := by
  cases frames : m.frames with
  | nil => simp [step, performed?, frames, leftState]
  | cons frame callers =>
    cases pending : frame.cursor.peek? with
    | none =>
      rw [step_of_end frames pending]
      simp [performed?, frames, pending, leftState]
    | some ch =>
      rw [step_of_pending frames pending]
      simp only [performed?, frames, pending]
      cases performed : perform host [ch] ((frame.cursor.advance 1).peek?.map ([·])) frame.turned
          (m.begun frame callers) with
      | error failure m₁ =>
        have refused : execute host [ch] (frame.cursor.advance 1) frame callers m =
            .error failure m₁ :=
          bind_eq_error.mpr (.inr ⟨(), m.begun frame callers, rfl,
            bind_eq_error.mpr (.inl performed)⟩)
        have kept := memory_of_failed performed
        rw [bind_error refused]
        exact kept
      | ok action m₁ =>
        have acts : Keeps (·.store.memory) (act host [ch]
            ((frame.cursor.advance 1).peek?.map ([·])) (frame.begin (frame.cursor.advance 1)) callers
            action >>= follow calling (frame.begin (frame.cursor.advance 1)) callers) :=
          .bind (keeps_memory_act _ _ _) fun _ => keeps_memory_follow _ _ _
        rw [bind_apply, execute_of_performed performed, ← bind_apply]
        exact acts _

/-- What no performance of a step changes is not changed by the step. -/
theorem memory_part_of_step {τ : Type} {f : Memory → τ} (host : Host) (calling : Calling)
    (m : Machine) (kept : ∀ p ∈ m.performed? host, f p.after.memory = f p.before.memory) :
    f (leftState (step host calling m)).store.memory = f m.store.memory := by
  rw [memory_of_step]
  cases performed : m.performed? host with
  | none => rfl
  | some p =>
    have same := kept p performed
    rwa [(done_of_performed performed).1] at same

/-- Steps link what a machine remembers before to what it remembers after them. -/
theorem linked_of_steps (host : Host) (calling : Calling) (limit : Nat) (m : Machine) :
    Linked m.store.memory (performances host calling limit m)
      (leftState (steps host calling limit m)).store.memory := by
  induction limit generalizing m with
  | zero => exact .nil _
  | succ limit ih =>
    -- What the first step leaves is what the others begin with, or the end where there are none.
    have first := memory_of_step host calling m
    have rest : Linked (leftState (step host calling m)).store.memory
        (match step host calling m with
          | .ok none m => performances host calling limit m
          | _ => [])
        (leftState (steps host calling (limit + 1) m)).store.memory := by
      unfold steps
      cases step host calling m with
      | error failure m₁ => exact .nil _
      | ok signal m₁ =>
        cases signal with
        | none => exact ih m₁
        | some signal => exact .nil _
    unfold performances
    cases performed : m.performed? host with
    | none =>
      rw [performed] at first
      rwa [first] at rest
    | some p =>
      rw [performed] at first
      rw [first] at rest
      obtain ⟨before, done⟩ := done_of_performed performed
      rw [← before]
      exact .cons done rest

theorem store_of_emit (host : Host) (event : Event) (m : Machine) :
    (leftState (emit host event m)).store = m.store :=
  (show Keeps Machine.store (emit host event) from keeps_emit (fun _ _ => rfl) host event) m

theorem memory_started (host : Host) (name source : Text) (m : Machine) :
    (m.started host name source).store.memory = m.store.memory := by
  have kept := congrArg Store.memory (store_of_emit host (.programStart source) m.cleared)
  exact kept

theorem linked_of_run {result : Except RunFailure Signal}
    (ran : run host .flat limit name source m = some (result, m')) :
    Linked m.store.memory (performancesOf host limit name source m) m'.store.memory := by
  have begun := memory_started host name source m
  unfold started at begun
  unfold performancesOf started
  cases told : emit host (.programStart source) m.cleared with
  | error failure m₁ =>
    rw [run_of_refused told] at ran
    cases ran
    rw [told] at begun
    rw [← begun]
    exact .nil _
  | ok _ m₁ =>
    rw [run_of_told told] at ran
    rw [told] at begun
    rw [← begun, kept_of_verdict (f := Machine.store) (fun _ _ => rfl) (fun _ _ => rfl) ran]
    exact linked_of_steps host .flat limit { m₁ with frames := [Frame.ofText name source] }

end Machine

end DeskCalculator
