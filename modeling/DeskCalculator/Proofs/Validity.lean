import DeskCalculator.Proofs.Instruction.Validity
import DeskCalculator.Proofs.Machine.Course
import DeskCalculator.Proofs.Machine.Quit
import DeskCalculator.Session

/-!
Valid stores throughout whole sessions. A step leaves the store valid, wherever it fails and whoever
makes it fail, and so does everything else that a session does.
-/

namespace DeskCalculator

/-- A machine with the built-in instructions and a valid store. -/
structure Machine.Valid (m : Machine) : Prop where
  store : m.store.Valid
  builtIn : m.overrides = {}

theorem Overrides.preserves_builtIn {name : Text} {next : Option Text} (turned : Bool)
    (single : ∀ t ∈ next, t.length = 1) :
    Preserves Store.Valid (Overrides.perform {} name next turned) := by
  intro s valid
  refine ⟨?_, fun _ _ _ => trivial⟩
  rw [builtIn_perform]
  split
  · exact valid
  · rename_i given
    have named : (Instruction.ofName name).needsName →
        (Instruction.nameOf next).length = 1 := by
      intro needs
      cases next with
      | none => exact absurd ⟨needs, rfl⟩ given
      | some t => exact single t rfl
    have performed := (Instruction.upholds_perform turned named s valid).1
    cases h : (Instruction.ofName name).perform next turned s <;> simpa [h, leftState] using performed

theorem Frame.unwound_nonneg (signal : Signal) {unwind : Int} (h : 0 ≤ unwind)
    (callers : List Frame) : 0 ≤ (unwound signal unwind callers).2.1 := by
  induction callers generalizing signal unwind with
  | nil => cases signal <;> exact h
  | cons caller callers ih =>
    cases signal with
    | okay => exact h
    | quit =>
      rw [unwound]
      split
      · exact ih _ (by omega)
      · exact ih _ h

namespace Machine

variable {host : Host} {α : Type} {Q : α → Prop} {name : Text} {next : Option Text}

theorem upholds_onStore {c : Calculation α} (hc : Upholds Store.Valid Q c) :
    Upholds Valid Q (onStore c) := by
  intro m valid
  obtain ⟨left, answers⟩ := hc m.store valid.store
  unfold onStore
  cases h : c m.store with
  | ok a store =>
    rw [h] at left
    refine ⟨⟨left, valid.builtIn⟩, fun b m' answered => ?_⟩
    cases answered
    exact answers _ _ h
  | error failure store =>
    rw [h] at left
    exact ⟨⟨left, valid.builtIn⟩, fun b m' answered => by cases answered⟩

theorem preserves_of_keeps {x : Activity α} (hx : Keeps (fun m => (m.store, m.overrides)) x) :
    Preserves Valid x := by
  intro m valid
  obtain ⟨store, overrides⟩ := Prod.mk.inj (hx m)
  refine ⟨⟨?_, overrides.trans valid.builtIn⟩, fun _ _ _ => trivial⟩
  rw [store]
  exact valid.store

theorem preserves_emit (host : Host) (event : Event) : Preserves Valid (emit host event) :=
  preserves_of_keeps (keeps_emit (fun _ _ => rfl) host event)

theorem preserves_setFrames (frames : List Frame) : Preserves Valid (setFrames frames) :=
  preserves_of_keeps fun _ => rfl

theorem preserves_perform {turned : Bool} (single : ∀ t ∈ next, t.length = 1) :
    Preserves Valid (perform host name next turned) := by
  have responds : Preserves Valid (respond name next turned) := by
    intro m valid
    simp only [respond, valid.builtIn]
    exact upholds_onStore (Overrides.preserves_builtIn turned single) m valid
  exact responds.bind fun response _ =>
    (preserves_of_keeps (keeps_ascribing _ (keeps_printAll (fun _ _ => rfl) host _))).bind
      fun _ _ => .pure trivial

theorem preserves_invoke (cursor : Cursor) (v : Value) : Preserves Valid (invoke cursor v) := by
  cases v with
  | text => exact .pure trivial
  | int | float => exact (upholds_onStore (Store.upholds_push _)).bind fun _ _ => .pure trivial

theorem preserves_act (frame : Frame) (callers : List Frame) (action : Action) :
    Preserves Valid (act host name next frame callers action) := by
  cases action with
  | proceed | skipName | quit | comment | negate => exact .pure trivial
  | callRegister =>
    exact (upholds_onStore (Store.upholds_existingRegister _)).bind fun _ _ => preserves_invoke _ _
  | callTop => exact (upholds_onStore Store.upholds_pop).bind fun _ _ => preserves_invoke _ _
  | numeral =>
    exact (upholds_onStore (Store.upholds_read _)).bind fun _ _ =>
      (upholds_onStore (Store.upholds_push _)).bind fun _ _ => .pure trivial
  | string => exact (upholds_onStore (Store.upholds_push _)).bind fun _ _ => .pure trivial
  | command =>
    exact (preserves_setFrames _).bind fun _ _ =>
      (preserves_of_keeps (keeps_command (fun _ _ => rfl) host _)).bind fun _ _ => .pure trivial
  | unknown =>
    unfold act
    exact upholds_onStore (Store.upholds_fail _)

theorem length_peek? (cursor : Cursor) : ∀ t ∈ cursor.peek?.map ([·]), t.length = 1 := by
  intro t given
  obtain ⟨ch, -, rfl⟩ := Option.map_eq_some_iff.mp given
  rfl

theorem preserves_execute (cursor : Cursor) (frame : Frame) (callers : List Frame) :
    Preserves Valid (execute host name cursor frame callers) :=
  (preserves_setFrames _).bind fun _ _ => (preserves_perform (length_peek? cursor)).bind fun _ _ =>
    (preserves_of_keeps fun _ => rfl).bind fun _ _ => preserves_act _ _ _

theorem preserves_leave (signal : Signal) (callers : List Frame) :
    Preserves Valid (leave signal callers) := by
  intro m valid
  have nonneg := Frame.unwound_nonneg signal valid.store.unwind callers
  exact ⟨⟨valid.store.withUnwind nonneg, valid.builtIn⟩, fun _ _ _ => trivial⟩

theorem preserves_quit (frame : Frame) (callers : List Frame) :
    Preserves Valid (quit frame callers) := by
  intro m valid
  unfold quit
  split
  · have left : 0 ≤ m.store.unwind - frame.tailDepth := by omega
    exact preserves_leave _ _ _ ⟨valid.store.withUnwind left, valid.builtIn⟩
  · exact preserves_leave _ _ m valid

/-- A step leaves a valid machine valid, also where it fails. -/
theorem preserves_step (host : Host) (calling : Calling) : Preserves Valid (step host calling) := by
  intro m valid
  cases frames : m.frames with
  | nil => simpa [step, frames, leftState] using valid
  | cons frame callers =>
    cases pending : frame.cursor.peek? with
    | none =>
      rw [step_of_end frames pending]
      exact ⟨⟨valid.store, valid.builtIn⟩, fun _ _ _ => trivial⟩
    | some ch =>
      rw [step_of_pending frames pending]
      refine (preserves_execute _ _ _).bind (fun move _ => ?_) m valid
      cases move with
      | goOn | call => exact (preserves_setFrames _).bind fun _ _ => .pure trivial
      | quit => exact preserves_quit _ _

/-- The machines that a run passes through: at its start, between its steps, within each of them when
the instruction has been performed, when it has been executed and when the step is done, and in the
end. Where one of these fails it is the machine that the failure leaves. -/
inductive Passes (host : Host) (calling : Calling) (name source : Text) (start : Machine) :
    Machine → Prop where
  | cleared : Passes host calling name source start start.cleared
  | told : Passes host calling name source start
      (leftState (emit host (.programStart source) start.cleared))
  | underway {m : Machine} {calls : List Nat} :
      Underway host calling name source start m calls → Passes host calling name source start m
  | performed {m : Machine} {calls : List Nat} {frame : Frame} {callers : List Frame}
      {ch : CodePoint} {cursor : Cursor} :
      Underway host calling name source start m calls → m.frames = frame :: callers →
      frame.cursor.next? = some (ch, cursor) →
      Passes host calling name source start
        (leftState (perform host [ch] (cursor.peek?.map ([·])) frame.turned
          { m with frames := frame.begin cursor :: callers }))
  | executed {m : Machine} {calls : List Nat} {frame : Frame} {callers : List Frame}
      {ch : CodePoint} {cursor : Cursor} :
      Underway host calling name source start m calls → m.frames = frame :: callers →
      frame.cursor.next? = some (ch, cursor) →
      Passes host calling name source start
        (leftState (execute host [ch] cursor frame callers m))
  | stepped {m : Machine} {calls : List Nat} :
      Underway host calling name source start m calls →
      Passes host calling name source start (leftState (step host calling m))
  | returned {limit : Nat} {result : Except RunFailure Signal} {m : Machine} :
      run host calling limit name source start = some (result, m) →
      Passes host calling name source start m

variable {calling : Calling} {source : Text} {start m : Machine} {calls : List Nat}

theorem Valid.cleared (h : start.Valid) : start.cleared.Valid :=
  ⟨h.store.withUnwind (Int.le_refl 0), h.builtIn⟩

theorem Valid.underway (h : start.Valid) (reached : Underway host calling name source start m calls) :
    m.Valid := by
  induction reached with
  | begin told =>
    have told := (preserves_emit host _).of_ok h.cleared told
    exact ⟨told.store, told.builtIn⟩
  | step _ stepped valid => exact (preserves_step host calling).of_ok valid stepped

theorem Valid.steps (h : m.Valid) (limit : Nat) :
    (leftState (steps host calling limit m)).Valid := by
  induction limit generalizing m with
  | zero => exact h
  | succ limit ih =>
    have left := (preserves_step host calling m h).1
    simp only [Machine.steps]
    cases stepped : step host calling m with
    | error failure m' => simpa [stepped] using left
    | ok signal m' =>
      rw [stepped] at left
      cases signal with
      | none => exact ih left
      | some signal => exact left

theorem Valid.conclude (h : m.Valid) (event : Event) (result : Except RunFailure Signal) :
    (conclude host event result m).2.Valid := by
  have left := (preserves_emit host event m h).1
  unfold Machine.conclude
  cases told : emit host event m <;> simpa [told, leftState] using left

theorem Valid.verdict {r : EStateM.Result Failure Machine (Option Signal)}
    (h : (leftState r).Valid) {result : Except RunFailure Signal}
    (concluded : verdict host r = some (result, m)) : m.Valid := by
  cases r with
  | error failure m₁ =>
    have cleared : Valid { m₁ with frames := [] } := ⟨h.store, h.builtIn⟩
    have ended : (Machine.conclude host _ _ _).2 = m := congrArg Prod.snd (Option.some.inj concluded)
    exact ended ▸ cleared.conclude _ _
  | ok signal m₁ =>
    cases signal with
    | none => cases concluded
    | some signal =>
      have ended : (Machine.conclude host _ _ _).2 = m :=
        congrArg Prod.snd (Option.some.inj concluded)
      have left : m₁.Valid := h
      exact ended ▸ left.conclude _ _

theorem Valid.run (h : start.Valid) {limit : Nat} {result : Except RunFailure Signal}
    (ran : run host calling limit name source start = some (result, m)) : m.Valid := by
  cases told : emit host (.programStart source) start.cleared with
  | error failure m₀ =>
    rw [run_of_refused told] at ran
    cases ran
    exact (preserves_emit host _).of_error h.cleared told
  | ok _ m₀ =>
    have begun := (preserves_emit host _).of_ok h.cleared told
    have framed : Valid { m₀ with frames := [Frame.ofText name source] } :=
      ⟨begun.store, begun.builtIn⟩
    rw [run_of_told told] at ran
    exact (framed.steps limit).verdict ran

theorem Valid.passes (h : start.Valid) (passed : Passes host calling name source start m) :
    m.Valid := by
  cases passed with
  | cleared => exact h.cleared
  | told => exact (preserves_emit host _ _ h.cleared).1
  | underway reached => exact h.underway reached
  | @performed m calls frame callers ch cursor reached =>
    have valid := h.underway reached
    have begun : Valid { m with frames := frame.begin cursor :: callers } :=
      ⟨valid.store, valid.builtIn⟩
    exact (preserves_perform (length_peek? cursor) _ begun).1
  | executed reached => exact (preserves_execute _ _ _ _ (h.underway reached)).1
  | stepped reached => exact (preserves_step host calling _ (h.underway reached)).1
  | returned ran => exact h.run ran

end Machine

namespace Session

/-- The sessions that runs, resets and pushes lead to. The host may be another one each time. -/
inductive Reached : Session → Prop where
  | start (verbose : Bool) : Reached (start verbose)
  | push {s : Session} (v : Value) : Reached s → Reached (s.push v)
  | reset {s : Session} : Reached s → Reached s.reset
  | run {s s' : Session} {host : Host} {limit : Nat} {name source : Text}
      {result : Except RunFailure Signal} :
      Reached s → s.run host limit name source = some (result, s') → Reached s'

variable {s s' : Session} {host : Host} {limit : Nat} {name source : Text}
  {result : Except RunFailure Signal}

theorem machine_of_run (h : s.run host limit name source = some (result, s')) :
    s.machine.run host .flat limit name source = some (result, s'.machine) := by
  obtain ⟨⟨result', m⟩, ran, ended⟩ := Option.map_eq_some_iff.mp h
  have same : result' = result ∧ m = s'.machine := by
    dsimp only at ended
    split at ended <;> exact ⟨congrArg Prod.fst ended, congrArg (·.2.machine) ended⟩
  rw [ran, same.1, same.2]

theorem valid_reached (h : Reached s) : s.machine.Valid := by
  induction h with
  | start verbose => exact ⟨Store.valid_empty, rfl⟩
  | push v _ valid => exact ⟨valid.store.withStack _, valid.builtIn⟩
  | reset => exact ⟨Store.valid_empty, rfl⟩
  | run _ ran valid => exact valid.run (machine_of_run ran)

/-- Every store of a session is valid: after each run, reset and push, and all the while that a
program runs, whatever its host does and wherever it fails. A run that returns has come to the end of
its text or has quit, by its last step. -/
theorem stores_valid (h : Reached s) :
    s.machine.store.Valid ∧
      ∀ host name source,
        (∀ m, Machine.Passes host .flat name source s.machine m → m.store.Valid) ∧
        ∀ limit signal s', s.run host limit name source = some (.ok signal, s') →
          (signal.name = Text.ofString "OKAY" ∨ signal.name = Text.ofString "QUIT") ∧
            ∃ m calls m', Machine.Underway host .flat name source s.machine m calls ∧
              Machine.step host .flat m = .ok (some signal) m' ∧ m.Ends signal := by
  have valid := valid_reached h
  refine ⟨valid.store, fun host name source => ⟨?_, ?_⟩⟩
  · intro m passed
    exact (valid.passes passed).store
  · intro limit signal s' ran
    obtain ⟨m, calls, m', underway, stepped⟩ := Machine.last_of_returned (machine_of_run ran)
    have builtIn := (valid.underway underway).builtIn
    have ends := Machine.ends_of_step builtIn underway.running stepped
    exact ⟨ends.name, m, calls, m', underway, stepped, ends⟩

/-- A store with an index below zero fails half-way: its array has been made and stays empty. -/
theorem stores_valid_after_failure :
    let s := ((start false).push (.int 5)).reset.push (.int 7)
    let source := Text.ofString "16o 2k _1:a"
    ∃ result s', s.run {} 20 [] source = some (result, s') ∧ result.toOption = none ∧
      s'.machine.store.arrays.entries = [(Text.ofString "a", {})] ∧ s'.machine.store.Valid := by
  intro s source
  have fails : (s.run {} 20 [] source).map
      (fun r => (r.1.toOption, r.2.machine.store.arrays.entries)) =
        some (none, [(Text.ofString "a", {})]) := by
    decide +kernel
  obtain ⟨⟨result, s'⟩, ran, left⟩ := Option.map_eq_some_iff.mp fails
  obtain ⟨failed, arrays⟩ := Prod.mk.inj left
  have reached : Reached s' := .run (.push _ (.reset (.push _ (.start false)))) ran
  exact ⟨result, s', ran, failed, arrays, (stores_valid reached).1⟩

end Session

end DeskCalculator
