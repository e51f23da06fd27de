import DeskCalculator.Machine.Run
import DeskCalculator.Proofs.Machine.Course
import DeskCalculator.Proofs.Machine.Quit

/-!
Levels left over from an earlier quit. A quit that ends fewer levels than its frame has leaves some
of them behind, and the next text is evaluated with them. They do no harm: a quit sets the levels
anew before any are counted, so whatever was left over shows in nothing but the levels themselves.
-/

namespace DeskCalculator

namespace Machine

variable {host : Host} {calling : Calling} {name text : Text} {m n : Machine}

/-- The evaluation of a text, as far as `limit` steps of it. -/
def evaluate (host : Host) (calling : Calling) (limit : Nat) (name text : Text) (m : Machine) :
    EStateM.Result Failure Machine (Option Signal) :=
  steps host calling limit { m with frames := [Frame.ofText name text] }

theorem exists_setUnwind (same : m.setUnwind 0 = n.setUnwind 0) : ∃ u, n = m.setUnwind u := by
  refine ⟨n.store.unwind, ?_⟩
  have restored := congrArg (setUnwind n.store.unwind) same
  exact restored.symm

/-- Steps of two machines that have come to the same but for the levels to end, and even in those
when a quit goes on beyond the text. -/
inductive Reconciled : EStateM.Result Failure Machine (Option Signal) →
    EStateM.Result Failure Machine (Option Signal) → Prop where
  | going {m n : Machine} (same : m.setUnwind 0 = n.setUnwind 0) :
      Reconciled (.ok none m) (.ok none n)
  | okay {m n : Machine} (same : m.setUnwind 0 = n.setUnwind 0) :
      Reconciled (.ok (some .okay) m) (.ok (some .okay) n)
  | quit (m : Machine) : Reconciled (.ok (some .quit) m) (.ok (some .quit) m)
  | failed (failure : Failure) {m n : Machine} (same : m.setUnwind 0 = n.setUnwind 0) :
      Reconciled (.error failure m) (.error failure n)

theorem Reconciled.refl (r : EStateM.Result Failure Machine (Option Signal)) : Reconciled r r := by
  cases r with
  | error failure m => exact .failed failure rfl
  | ok signal m =>
    cases signal with
    | none => exact .going rfl
    | some signal =>
      cases signal with
      | okay => exact .okay rfl
      | quit => exact .quit m

theorem reconciled_over (frames : List Frame) (same : m.setUnwind 0 = n.setUnwind 0) :
    Reconciled (.ok (over? .okay frames) { m with frames })
      (.ok (over? .okay frames) { n with frames }) := by
  have same' : ({ m with frames } : Machine).setUnwind 0 =
      ({ n with frames } : Machine).setUnwind 0 :=
    congrArg (fun m : Machine => { m with frames }) same
  cases frames with
  | nil => exact .okay same'
  | cons => exact .going same'

/-- A quit sets the levels to end, whatever they were. -/
theorem step_quits_setUnwind {k : Int} (builtIn : m.overrides = {}) (quits : m.quits? = some k)
    (u : Int) : step host calling (m.setUnwind u) = step host calling m := by
  obtain ⟨frame, callers, ch, frames, -, -⟩ := exists_of_quits quits
  have quits' : (m.setUnwind u).quits? = some k := by
    simpa [quits?, pending?, setUnwind, Instruction.levels?_setUnwind] using quits
  rw [step_quits builtIn frames quits, step_quits (m := m.setUnwind u) builtIn frames quits']
  rfl

/-- Whatever an instruction asks for but to quit, it asks for with any levels to end. -/
theorem follow_reconciled {move : Move} (asked : move ≠ .quit) (frame : Frame)
    (callers : List Frame) (same : m.setUnwind 0 = n.setUnwind 0) :
    Reconciled (follow calling frame callers move m) (follow calling frame callers move n) := by
  have placed (frames : List Frame) :
      Reconciled (.ok none { m with frames }) (.ok none { n with frames }) :=
    .going (congrArg (fun m : Machine => { m with frames }) same)
  cases move with
  | goOn => exact placed _
  | call => exact placed _
  | quit => exact absurd rfl asked

/-- A step of machines that differ in the levels to end leaves them so, or the same. -/
theorem step_reconciled (builtIn : m.overrides = {}) (u : Int) :
    Reconciled (step host calling m) (step host calling (m.setUnwind u)) := by
  cases quits : m.quits? with
  | some k =>
    rw [step_quits_setUnwind builtIn quits]
    exact .refl _
  | none =>
    cases frames : m.frames with
    | nil =>
      have frames' : (m.setUnwind u).frames = [] := frames
      simp only [step, frames, frames']
      exact .okay rfl
    | cons frame callers =>
      have frames' : (m.setUnwind u).frames = frame :: callers := frames
      cases pending : frame.cursor.peek? with
      | none =>
        rw [step_of_end frames pending, step_of_end frames' pending]
        exact reconciled_over callers rfl
      | some ch =>
        have levels := (quits?_of_pending frames pending).symm.trans quits
        rw [step_of_pending frames pending, step_of_pending frames' pending, bind_apply, bind_apply,
          execute_setUnwind builtIn levels]
        cases executed : execute host [ch] (frame.cursor.advance 1) frame callers m with
        | error failure m' => exact .failed failure rfl
        | ok move m' =>
          exact follow_reconciled (execute_ne_quit builtIn levels executed) _ callers rfl

theorem steps_reconciled (limit : Nat) (builtIn : m.overrides = {})
    (same : m.setUnwind 0 = n.setUnwind 0) :
    Reconciled (steps host calling limit m) (steps host calling limit n) := by
  induction limit generalizing m n with
  | zero => exact .going same
  | succ limit ih =>
    obtain ⟨u, rfl⟩ := exists_setUnwind same
    have stepped : Reconciled (step host calling m) (step host calling (m.setUnwind u)) :=
      step_reconciled builtIn u
    have kept : Keeps Machine.overrides (step host calling) :=
      keeps_step (fun _ _ => rfl) (fun _ _ => rfl) (fun _ _ => rfl) fun _ _ => rfl
    have left := kept m
    simp only [steps]
    generalize step host calling m = r at stepped left
    generalize step host calling (m.setUnwind u) = r' at stepped
    cases stepped with
    | going same' => exact ih (left.trans builtIn) same'
    | okay same' => exact .okay same'
    | quit m' => exact .quit m'
    | failed failure same' => exact .failed failure same'

/-- Evaluations from machines that differ in the levels left over come to the same: they return the
same signal, or they fail with the same failure, or neither has ended yet. The machines they leave
differ in nothing but the levels, and not even in these when a quit goes on beyond the text. -/
theorem leftover_harmless (builtIn : m.overrides = {}) (same : m.setUnwind 0 = n.setUnwind 0)
    (limit : Nat) :
    through (setUnwind 0) (evaluate host calling limit name text m) =
        through (setUnwind 0) (evaluate host calling limit name text n) ∧
      ∀ m', evaluate host calling limit name text m = .ok (some .quit) m' →
        evaluate host calling limit name text n = .ok (some .quit) m' := by
  let frames := [Frame.ofText name text]
  have same' : ({ m with frames } : Machine).setUnwind 0 =
      ({ n with frames } : Machine).setUnwind 0 :=
    congrArg (fun m : Machine => { m with frames }) same
  have reconciled : Reconciled (steps host calling limit { m with frames })
      (steps host calling limit { n with frames }) := steps_reconciled limit builtIn same'
  unfold evaluate
  generalize steps host calling limit { m with frames } = r at reconciled
  generalize steps host calling limit { n with frames } = r' at reconciled
  cases reconciled with
  | going same => simpa using same
  | okay same => simpa using same
  | quit m' => simp
  | failed failure same => simpa using same

/-- The machine that steps have left, if a quit goes on beyond the text. -/
def quitting? : EStateM.Result Failure Machine (Option Signal) → Option Machine
  | .ok (some .quit) m => some m
  | .ok (some .okay) _ => none
  | .ok none _ => none
  | .error _ _ => none

theorem eq_of_quitting {r : EStateM.Result Failure Machine (Option Signal)}
    (h : quitting? r = some m) : r = .ok (some .quit) m := by
  cases r with
  | error failure m' => cases h
  | ok signal m' =>
    cases signal with
    | none => cases h
    | some signal =>
      cases signal with
      | okay => cases h
      | quit =>
        cases h
        rfl

/-- In `[[1p2Q]x]x3p2Q` the first quit ends its frame alone and leaves a level over, beside the five
from before; the second one goes on beyond the text. -/
theorem leftover_harmless_five :
    let text := Text.ofString "[[1p2Q]x]x3p2Q"
    let m := setUnwind 5 {}
    ∃ m', evaluate {} .flat 30 [] text m = .ok (some .quit) m' ∧
      m'.history = [.wrote (Text.ofString "3\n"), .wrote (Text.ofString "1\n")] ∧
      evaluate {} .flat 30 [] text {} = .ok (some .quit) m' := by
  intro text m
  have quits : (quitting? (evaluate {} .flat 30 [] text m)).map (·.history) =
      some [.wrote (Text.ofString "3\n"), .wrote (Text.ofString "1\n")] := by
    decide +kernel
  obtain ⟨m', quitting, written⟩ := Option.map_eq_some_iff.mp quits
  have evaluated := eq_of_quitting quitting
  have same : m.setUnwind 0 = ({} : Machine).setUnwind 0 := rfl
  exact ⟨m', evaluated, written, (leftover_harmless rfl same 30).2 m' evaluated⟩

end Machine

end DeskCalculator
