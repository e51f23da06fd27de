import DeskCalculator.Proofs.Machine.Matching
import DeskCalculator.Proofs.Machine.Notices

/-!
The events of a run. The start of the program is told of before anything else, and a handler that
refuses to be told keeps the program from being evaluated. After an evaluation its end is told of, or
its failure, once and with no frame left. The run comes out as the evaluation did, unless a handler
refuses this last notice.
-/

namespace DeskCalculator

/-- The event that an effect emits, unless it is a command, with the number of frames there were. -/
def Effect.milestone? : Effect → Option (Event × Nat)
  | emitted (.command _) _ => none
  | emitted event frames => some (event, frames)
  | _ => none

/-- The events of a history but for the commands, the latest first. -/
def milestones (history : History) : List (Event × Nat) := history.filterMap Effect.milestone?

/-- A result, or the refusal that takes its place. -/
def settled (result : Except RunFailure Signal) (refusal : Option Failure) :
    Except RunFailure Signal :=
  refusal.elim result fun failure => .error failure.passedOn

section histories
variable {host : Host} {event : Event} {depth frames : Nat} {handlers : List Handler}
  {before after : History} {refusal : Option Failure} {failure : Failure}

theorem milestones_called (h : Called event depth frames handlers before refusal after) :
    milestones after = milestones before := by
  induction h with
  | all => rfl
  | agrees _ _ ih => exact ih
  | refuses => rfl

theorem outputs_called (h : Called event depth frames handlers before refusal after) :
    after.filter Effect.isOutput = before.filter Effect.isOutput := by
  induction h with
  | all => rfl
  | agrees _ _ ih => exact ih
  | refuses => rfl

theorem outputs_told (h : Told host event depth frames before refusal after) :
    after.filter Effect.isOutput = before.filter Effect.isOutput :=
  (outputs_called h).trans rfl

theorem milestones_command {text : Text}
    (h : Told host (.command text) depth frames before refusal after) :
    milestones after = milestones before :=
  (milestones_called h).trans rfl

theorem milestones_works (h : Works host before after) : milestones after = milestones before := by
  induction h with
  | nothing => rfl
  | wrote _ _ ih => exact ih
  | ran _ told _ ih => exact (milestones_command told).trans ih

theorem milestones_breaks (h : Breaks host before failure after) :
    milestones after = milestones before := by
  cases h with
  | idle works => exact milestones_works works
  | untold works told | refused works told =>
    exact (milestones_command told).trans (milestones_works works)

end histories

namespace Machine

variable {host : Host} {calling : Calling} {limit : Nat} {name source : Text} {start m m' : Machine}
  {signal : Signal} {result : Except RunFailure Signal}

/-- How a run goes, by the event that ends it. No event ends a run whose start has been refused. -/
inductive Lifecycle (host : Host) (calling : Calling) (limit : Nat) (name source : Text)
    (start : Machine) : Option Event → Except RunFailure Signal → Machine → Prop where
  | refused {after : History} {failure : Failure}
      (told : Told host (.programStart source) start.store.stack.length 0 start.history
        (some failure) after) :
      Lifecycle host calling limit name source start none (.error failure.passedOn)
        { start.cleared with history := after }
  | returned {begun after : History} {signal : Signal} {m : Machine} {refusal : Option Failure}
      (told : Told host (.programStart source) start.store.stack.length 0 start.history none begun)
      (evaluated : steps host calling limit
        { start.cleared with history := begun, frames := [Frame.ofText name source] } =
          .ok (some signal) m)
      (works : Works host begun m.history)
      (ended : Told host (.programEnd signal) m.store.stack.length 0 m.history refusal after) :
      Lifecycle host calling limit name source start (some (.programEnd signal))
        (settled (.ok signal) refusal) { m with history := after, frames := [] }
  | failed {begun after : History} {failure : Failure} {m : Machine} {refusal : Option Failure}
      (told : Told host (.programStart source) start.store.stack.length 0 start.history none begun)
      (evaluated : steps host calling limit
        { start.cleared with history := begun, frames := [Frame.ofText name source] } =
          .error failure m)
      (breaks : Breaks host begun failure m.history)
      (ended : Told host (.onError (m.traceback failure).fault) m.store.stack.length 0 m.history
        refusal after) :
      Lifecycle host calling limit name source start (some (.onError (m.traceback failure).fault))
        (settled (.error (.fault (m.traceback failure))) refusal)
        { m with history := after, frames := [] }

/-- A run is concluded with its result, unless a handler refuses to be told of the end. -/
theorem told_conclude (host : Host) (event : Event) (result : Except RunFailure Signal)
    (m : Machine) :
    ∃ refusal after,
      Told host event m.store.stack.length m.frames.length m.history refusal after ∧
        conclude host event result m = (settled result refusal, { m with history := after }) := by
  obtain ⟨refusal, after, told, emitted⟩ := told_emit host event m
  refine ⟨refusal, after, told, ?_⟩
  rw [conclude, emitted]
  cases refusal <;> rfl

/-- No frame is left when an evaluation gives a signal. -/
theorem frames_of_ended (running : m.frames ≠ [])
    (ended : steps host calling limit m = .ok (some signal) m') : m'.frames = [] := by
  induction limit generalizing m with
  | zero => cases ended
  | succ limit ih =>
    cases stepped : step host calling m with
    | error failure m₁ => simp [steps, stepped] at ended
    | ok signal' m₁ =>
      have turned := (step_turn running stepped).2
      cases signal' with
      | none =>
        rw [steps_succ stepped] at ended
        exact ih (turned.mp rfl) ended
      | some signal' =>
        simp only [steps, stepped] at ended
        cases ended
        by_cases none : m'.frames = []
        · exact none
        · cases turned.mpr none

/-- Every run that is over has gone as the lifecycle says, and of its milestones there are those that
the lifecycle names and no more. When the start has been refused, nothing has been put out. -/
theorem run_lifecycle (ran : run host calling limit name source start = some (result, m)) :
    ∃ ending, Lifecycle host calling limit name source start ending result m ∧
      milestones m.history =
        ending.toList.map (·, 0) ++ (.programStart source, 0) :: milestones start.history ∧
      (ending = none → m.outputs = start.outputs) := by
  obtain ⟨refusal, begun, told, emitted⟩ := told_emit host (.programStart source) start.cleared
  have started : milestones begun = (.programStart source, 0) :: milestones start.history :=
    milestones_called told
  cases refusal with
  | some failure =>
    rw [run_of_refused emitted] at ran
    cases ran
    exact ⟨none, .refused told, started, fun _ => outputs_told told⟩
  | none =>
    rw [run_of_told emitted] at ran
    have evaluation := breakable_steps host calling begun limit
      { start.cleared with history := begun, frames := [Frame.ofText name source] } .nothing
    cases evaluated : steps host calling limit
      { start.cleared with history := begun, frames := [Frame.ofText name source] } with
    | error failure m₁ =>
      rw [evaluated] at ran evaluation
      obtain ⟨refusal, after, ended, concluded⟩ :=
        told_conclude host (.onError (m₁.traceback failure).fault)
          (.error (.fault (m₁.traceback failure))) { m₁ with frames := [] }
      cases concluded.symm.trans (Option.some.inj ran)
      refine ⟨_, .failed told evaluated evaluation ended, ?_, nofun⟩
      have last : milestones after = _ := milestones_called ended
      exact last.trans (congrArg _ ((milestones_breaks evaluation).trans started))
    | ok ended m₁ =>
      rw [evaluated] at ran evaluation
      cases ended with
      | none => cases ran
      | some signal =>
        have none : m₁.frames = [] := frames_of_ended (List.cons_ne_nil _ _) evaluated
        obtain ⟨refusal, after, ended, concluded⟩ :=
          told_conclude host (.programEnd signal) (.ok signal) m₁
        have same : { m₁ with history := after } = { m₁ with history := after, frames := [] } := by
          rw [none]
        rw [none] at ended
        rw [same] at concluded
        cases concluded.symm.trans (Option.some.inj ran)
        refine ⟨_, .returned told evaluated evaluation ended, ?_, nofun⟩
        have last : milestones after = _ := milestones_called ended
        exact last.trans (congrArg _ ((milestones_works evaluation).trans started))

/-- A run of `1p!ls` whose command is refused, and then the notice of its failure as well. -/
theorem run_lifecycle_refused_twice :
    let busy : Breakdown := .external (Text.ofString "OSError") (Text.ofString "busy")
    let deaf : Fault := ⟨.external .runtime (Text.ofString "deaf"), none⟩
    let handler : Handler := ⟨Text.ofString "h", fun _ => some (.fault deaf)⟩
    let host : Host :=
      { hooks := ⟨[⟨.onError, 0, handler⟩]⟩, run := fun _ _ => some (.breakdown busy) }
    let program := Text.ofString "1p!ls"
    let error : Fault := ⟨.internal busy, some (Text.ofString "!")⟩
    ∃ m, run host .flat 9 [] program {} = some (.error (.fault { fault := deaf }), m) ∧
      Lifecycle host .flat 9 [] program {} (some (.onError error))
        (.error (.fault { fault := deaf })) m := by
  intro busy deaf handler host program error
  have ends : (run host .flat 9 [] program {}).bind (fun r =>
      (raised? r.1).map fun t => (t, milestones r.2.history)) =
      some ({ fault := deaf }, [(.onError error, 0), (.programStart program, 0)]) := by
    decide +kernel
  obtain ⟨⟨result, m⟩, ran, ended⟩ := Option.bind_eq_some_iff.mp ends
  obtain ⟨t, raised, left⟩ := Option.map_eq_some_iff.mp ended
  obtain ⟨rfl, told⟩ := Prod.mk.inj left
  obtain rfl := eq_of_raised raised
  obtain ⟨ending, lifecycle, named, -⟩ := run_lifecycle ran
  have last : ending = some (.onError error) := by
    rw [told] at named
    cases ending with
    | none => cases named
    | some event => exact congrArg some (Prod.mk.inj (List.cons.inj named).1).1.symm
  exact ⟨m, ran, last ▸ lifecycle⟩

end Machine

end DeskCalculator
