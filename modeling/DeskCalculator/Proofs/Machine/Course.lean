import DeskCalculator.Machine.Run
import DeskCalculator.Proofs.Machine.Turn

/-!
The course of a run: the machines it passes through, each with the calls that are still in progress.
A run is underway until a step gives a signal or fails, and then it has ended.
-/

namespace DeskCalculator

/-- The calls in progress after a step that leaves `height` frames. A call is told by the number of
frames up to the one that executes it, and is in progress as long as that frame is there. -/
def inProgress (move : Option Move) (height : Nat) (calls : List Nat) : List Nat :=
  match move with
  | some (.call _ _) => height :: calls.filter (· ≤ height)
  | _ => calls.filter (· ≤ height)

namespace Machine

/-- A machine that has nothing left from earlier programs but its state. -/
def cleared (m : Machine) : Machine :=
  { m with store := { m.store with unwind := 0 }, frames := [] }

inductive Underway (host : Host) (calling : Calling) (name source : Text) (start : Machine) :
    Machine → List Nat → Prop where
  | begin {m : Machine} (told : emit host (.programStart source) start.cleared = .ok () m) :
      Underway host calling name source start { m with frames := [Frame.ofText name source] } []
  | step {m m' : Machine} {calls : List Nat} :
      Underway host calling name source start m calls → step host calling m = .ok none m' →
      Underway host calling name source start m'
        (inProgress (m.move? host) m'.frames.length calls)

variable {host : Host} {calling : Calling} {name source : Text} {start m m' : Machine}
  {calls : List Nat} {i j : Nat}

theorem Underway.running (h : Underway host calling name source start m calls) :
    m.frames ≠ [] := by
  induction h with
  | begin => exact List.cons_ne_nil _ _
  | step _ stepped running => exact (step_turn running stepped).2.mp rfl

section keeping
variable {τ : Type} {f : Machine → τ} (hs : ∀ m store, f { m with store } = f m)
  (hf : ∀ m frames, f { m with frames } = f m)
include hs hf

theorem keeps_leave (signal : Signal) (callers : List Frame) : Keeps f (leave signal callers) := by
  intro m
  exact (hf { m with store := _ } _).trans (hs m _)

theorem keeps_follow (frame : Frame) (callers : List Frame) (move : Move) :
    Keeps f (follow calling frame callers move) := by
  cases move with
  | goOn | call => exact .bind (fun m => hf m _) fun _ => .pure _
  | quit =>
    intro m
    change f (leftState (quit frame callers m)) = f m
    unfold quit
    split
    · exact (keeps_leave hs hf .quit callers { m with store := _ }).trans (hs m _)
    · exact keeps_leave hs hf .okay callers m

theorem keeps_step (hh : ∀ m history, f { m with history } = f m)
    (hj : ∀ m journal, f { m with journal } = f m) : Keeps f (step host calling) := by
  intro m
  cases frames : m.frames with
  | nil => simp [step, frames, leftState]
  | cons frame callers =>
    cases pending : frame.cursor.peek? with
    | none =>
      rw [step_of_end frames pending]
      exact hf m _
    | some ch =>
      rw [step_of_pending frames pending]
      exact Keeps.bind (keeps_execute hs hh hf hj _ _ _) (keeps_follow hs hf _ _) m

end keeping

theorem Underway.overrides (h : Underway host calling name source start m calls) :
    m.overrides = start.overrides := by
  induction h with
  | begin told =>
    have kept : Keeps Machine.overrides (emit host (.programStart source)) :=
      keeps_emit (fun _ _ => rfl) host _
    have toldKept := kept.of_ok told
    exact toldKept
  | step _ stepped ih =>
    have kept : Keeps Machine.overrides (Machine.step host calling) :=
      keeps_step (fun _ _ => rfl) (fun _ _ => rfl) (fun _ _ => rfl) fun _ _ => rfl
    exact (kept.of_ok stepped).trans ih

/-- Whether there is more to come after some steps. -/
def goesOn : EStateM.Result Failure Machine (Option Signal) → Bool
  | .ok none _ => true
  | _ => false

theorem eq_of_goesOn {result : EStateM.Result Failure Machine (Option Signal)}
    (h : goesOn result) : result = .ok none (leftState result) := by
  cases result with
  | error failure m => cases h
  | ok signal m =>
    cases signal with
    | none => rfl
    | some signal => cases h

theorem steps_succ (h : step host calling m = .ok none m') :
    steps host calling (i + 1) m = steps host calling i m' := by
  simp only [steps, h]

theorem steps_add (h : steps host calling i m = .ok none m') :
    steps host calling (i + j) m = steps host calling j m' := by
  induction i generalizing m with
  | zero =>
    cases h
    rw [Nat.zero_add]
  | succ i ih =>
    rw [Nat.succ_add]
    cases stepped : step host calling m with
    | error failure m₁ => simp [steps, stepped] at h
    | ok signal m₁ =>
      cases signal with
      | none =>
        rw [steps_succ stepped] at h ⊢
        exact ih h
      | some signal => simp [steps, stepped] at h

/-- A run that has ended stays as it is, whatever more it is given. -/
theorem steps_stay {result : EStateM.Result Failure Machine (Option Signal)}
    (h : steps host calling i m = result) (ended : goesOn result = false) (le : i ≤ j) :
    steps host calling j m = result := by
  induction i generalizing j m with
  | zero =>
    subst h
    cases ended
  | succ i ih =>
    obtain ⟨j, rfl⟩ : ∃ k, j = k + 1 := ⟨j - 1, by omega⟩
    cases stepped : step host calling m with
    | error failure m₁ => simpa only [steps, stepped] using h
    | ok signal m₁ =>
      cases signal with
      | none =>
        rw [steps_succ stepped] at h ⊢
        exact ih h (by omega)
      | some signal => simpa only [steps, stepped] using h

theorem steps_one (m : Machine) : steps host calling 1 m = step host calling m := by
  simp only [steps]
  cases step host calling m with
  | error failure m' => rfl
  | ok signal m' => cases signal <;> rfl

/-- How a run is over once its steps are. -/
def verdict (host : Host) :
    EStateM.Result Failure Machine (Option Signal) → Option (Except RunFailure Signal × Machine)
  | .ok none _ => none
  | .ok (some signal) m => some (conclude host (.programEnd signal) (.ok signal) m)
  | .error failure m =>
    some (conclude host (.onError (m.traceback failure).fault)
      (.error (.fault (m.traceback failure))) { m with frames := [] })

/-- The traceback that a run raises. -/
def raised? : Except RunFailure Signal → Option Traceback
  | .error (.fault t) => some t
  | _ => none

theorem eq_of_raised {result : Except RunFailure Signal} {t : Traceback}
    (h : raised? result = some t) : result = .error (.fault t) := by
  cases result with
  | ok signal => cases h
  | error failure =>
    cases failure with
    | fault t' =>
      cases h
      rfl
    | breakdown b => cases h

theorem run_of_refused {failure : Failure}
    (h : emit host (.programStart source) start.cleared = .error failure m) (limit : Nat) :
    run host calling limit name source start = some (.error failure.passedOn, m) := by
  unfold cleared at h
  simp only [run, h]

theorem run_of_told (h : emit host (.programStart source) start.cleared = .ok () m) (limit : Nat) :
    run host calling limit name source start =
      verdict host (steps host calling limit { m with frames := [Frame.ofText name source] }) := by
  unfold cleared at h
  simp only [run, h]
  cases steps host calling limit { m with frames := [Frame.ofText name source] } with
  | error failure m' => rfl
  | ok signal m' => cases signal <;> rfl

theorem goesOn_of_verdict {r : EStateM.Result Failure Machine (Option Signal)}
    {ended : Except RunFailure Signal × Machine} (h : verdict host r = some ended) :
    goesOn r = false := by
  cases r with
  | error => rfl
  | ok signal m =>
    cases signal with
    | none => cases h
    | some signal => rfl

/-- A run is concluded from the machine that its steps have left, and not as a breakdown. -/
theorem concluded_of_verdict {r : EStateM.Result Failure Machine (Option Signal)}
    {ended : Except RunFailure Signal × Machine} (h : verdict host r = some ended) :
    ∃ event result frames, conclude host event result { leftState r with frames } = ended ∧
      ∀ b, result ≠ .error (.breakdown b) := by
  cases r with
  | error failure m =>
    refine ⟨_, _, [], Option.some.inj h, ?_⟩
    intro b broken
    cases broken
  | ok signal m =>
    cases signal with
    | none => cases h
    | some signal =>
      refine ⟨_, _, m.frames, Option.some.inj h, ?_⟩
      intro b broken
      cases broken

section ending
variable {τ : Type} {f : Machine → τ} (hh : ∀ m history, f { m with history } = f m)
include hh

theorem kept_of_conclude (host : Host) (event : Event) (result : Except RunFailure Signal)
    (m : Machine) : f (conclude host event result m).2 = f m := by
  have told := keeps_emit hh host event m
  unfold conclude
  generalize emit host event m = r at told
  cases r <;> exact told

theorem kept_of_verdict (hf : ∀ m frames, f { m with frames } = f m)
    {r : EStateM.Result Failure Machine (Option Signal)} {result : Except RunFailure Signal}
    (concluded : verdict host r = some (result, m)) : f m = f (leftState r) := by
  obtain ⟨event, result', frames, ended, -⟩ := concluded_of_verdict concluded
  have kept := kept_of_conclude hh host event result' { leftState r with frames }
  rw [ended] at kept
  exact kept.trans (hf _ frames)

end ending

/-- A run has one end. -/
theorem run_stay {ended : Except RunFailure Signal × Machine}
    (h : run host calling i name source start = some ended) (le : i ≤ j) :
    run host calling j name source start = some ended := by
  cases told : emit host (.programStart source) start.cleared with
  | error failure m =>
    rw [run_of_refused told] at h ⊢
    exact h
  | ok _ m =>
    rw [run_of_told told] at h ⊢
    rw [steps_stay rfl (goesOn_of_verdict h) le]
    exact h

/-- The machines of a run are those that it has reached after some number of steps. -/
theorem Underway.after_steps (h : Underway host calling name source start m calls) :
    ∃ m₀ i, emit host (.programStart source) start.cleared = .ok () m₀ ∧
      steps host calling i { m₀ with frames := [Frame.ofText name source] } = .ok none m := by
  induction h with
  | begin told => exact ⟨_, 0, told, rfl⟩
  | step _ stepped ih =>
    obtain ⟨m₀, i, told, reached⟩ := ih
    refine ⟨m₀, i + 1, told, ?_⟩
    rw [steps_add reached, steps_succ stepped]
    rfl

theorem Underway.steps (h : Underway host calling name source start m calls)
    (reached : steps host calling i m = .ok none m') :
    ∃ calls', Underway host calling name source start m' calls' := by
  induction i generalizing m calls with
  | zero =>
    cases reached
    exact ⟨calls, h⟩
  | succ i ih =>
    cases stepped : Machine.step host calling m with
    | error failure m₁ => simp [Machine.steps, stepped] at reached
    | ok signal m₁ =>
      cases signal with
      | none =>
        rw [steps_succ stepped] at reached
        exact ih (h.step stepped) reached
      | some signal => simp [Machine.steps, stepped] at reached

/-- A run that ends has a last step. -/
theorem Underway.last (h : Underway host calling name source start m calls)
    {result : EStateM.Result Failure Machine (Option Signal)}
    (ran : Machine.steps host calling i m = result) (ended : goesOn result = false) :
    ∃ k m₁ calls₁, Machine.steps host calling k m = .ok none m₁ ∧
      Underway host calling name source start m₁ calls₁ ∧
        Machine.step host calling m₁ = result := by
  induction i generalizing m calls with
  | zero =>
    subst ran
    cases ended
  | succ i ih =>
    cases stepped : Machine.step host calling m with
    | error failure m₁ =>
      simp only [Machine.steps, stepped] at ran
      exact ⟨0, m, calls, rfl, h, stepped.trans ran⟩
    | ok signal m₁ =>
      cases signal with
      | none =>
        rw [steps_succ stepped] at ran
        obtain ⟨k, m₂, calls₂, reached, last⟩ := ih (h.step stepped) ran
        exact ⟨k + 1, m₂, calls₂, (steps_succ stepped).trans reached, last⟩
      | some signal =>
        simp only [Machine.steps, stepped] at ran
        exact ⟨0, m, calls, rfl, h, stepped.trans ran⟩

/-- A run that returns a signal has been given it by its last step. -/
theorem last_of_returned {signal : Signal}
    (ran : run host calling i name source start = some (.ok signal, m)) :
    ∃ m₁ calls m', Underway host calling name source start m₁ calls ∧
      step host calling m₁ = .ok (some signal) m' := by
  cases told : emit host (.programStart source) start.cleared with
  | error failure m₀ =>
    rw [run_of_refused told] at ran
    cases ran
  | ok _ m₀ =>
    rw [run_of_told told] at ran
    obtain ⟨k, m₁, calls, -, underway, stepped⟩ :=
      (Underway.begin told).last rfl (goesOn_of_verdict ran)
    refine ⟨m₁, calls, ?_⟩
    rw [← stepped] at ran
    cases ended : step host calling m₁ with
    | error failure m' =>
      rw [ended] at ran
      have result := congrArg Prod.fst (Option.some.inj ran)
      unfold conclude at result
      split at result <;> cases result
    | ok signal' m' =>
      rw [ended] at ran
      cases signal' with
      | none => cases ran
      | some signal' =>
        have result := congrArg Prod.fst (Option.some.inj ran)
        unfold conclude at result
        split at result <;> cases result
        exact ⟨m', underway, rfl⟩

/-- The steps of a program from its start, at most `limit` of them. -/
def stepsOf (host : Host) (calling : Calling) (name source : Text) (start : Machine)
    (limit : Nat) : EStateM.Result Failure Machine (Option Signal) :=
  steps host calling limit
    { leftState (emit host (.programStart source) start.cleared) with
      frames := [Frame.ofText name source] }

theorem underway_stepsOf (told : emit host (.programStart source) start.cleared = .ok () m)
    (going : goesOn (stepsOf host calling name source start i)) :
    ∃ calls, Underway host calling name source start
      (leftState (stepsOf host calling name source start i)) calls := by
  have reached := eq_of_goesOn going
  simp only [stepsOf, told, leftState] at reached ⊢
  exact (Underway.begin told).steps reached

/-- A run that has ended after `i` steps has passed through the machines after fewer steps only. -/
theorem Underway.before (h : Underway host calling name source start m calls)
    (ended : goesOn (stepsOf host calling name source start i) = false) :
    ∃ j < i, m = leftState (stepsOf host calling name source start j) := by
  obtain ⟨m₀, j, told, reached⟩ := h.after_steps
  simp only [stepsOf, told, leftState] at ended ⊢
  refine ⟨j, Nat.lt_of_not_le fun le => ?_, by rw [reached]⟩
  rw [steps_stay rfl ended le] at reached
  rw [reached] at ended
  cases ended

/-- A run ends as its last step does. -/
theorem Underway.run_ends (h : Underway host calling name source start m calls)
    {result : EStateM.Result Failure Machine (Option Signal)}
    (stepped : Machine.step host calling m = result) :
    ∃ limit, run host calling limit name source start = verdict host result := by
  obtain ⟨m₀, i, told, reached⟩ := h.after_steps
  refine ⟨i + 1, ?_⟩
  rw [run_of_told told, steps_add reached, steps_one, stepped]

end Machine

end DeskCalculator
