import DeskCalculator.Proofs.Machine.Course

/-!
What a run adds to its history. Of an event the handlers are told in turn; one that refuses keeps
those behind it from being called. An evaluation writes and gives commands, and tells of nothing but
the commands: of each just before it is given, and it is given only if no handler has refused.
-/

namespace DeskCalculator

/-- Handlers are called with an event in turn, until one of them refuses. -/
inductive Called (event : Event) (depth frames : Nat) :
    List Handler → History → Option Failure → History → Prop where
  | all {before : History} : Called event depth frames [] before none before
  | agrees {handler : Handler} {others : List Handler} {before after : History}
      {refusal : Option Failure}
      (agreed : handler.respond (.handled handler.tag event depth frames :: before) = none)
      (rest : Called event depth frames others (.handled handler.tag event depth frames :: before)
        refusal after) :
      Called event depth frames (handler :: others) before refusal after
  | refuses {handler : Handler} {others : List Handler} {before : History} {failure : Failure}
      (refused : handler.respond (.handled handler.tag event depth frames :: before) =
        some failure) :
      Called event depth frames (handler :: others) before (some failure)
        (.handled handler.tag event depth frames :: before)

/-- An event is emitted and the handlers of its occasion are called with it. -/
def Told (host : Host) (event : Event) (depth frames : Nat) (before : History)
    (refusal : Option Failure) (after : History) : Prop :=
  Called event depth frames (host.hooks.handlers event.occasion) (.emitted event frames :: before)
    refusal after

/-- What an evaluation adds to a history as long as the host refuses nothing. -/
inductive Works (host : Host) (before : History) : History → Prop where
  | nothing : Works host before before
  | wrote {after : History} {text : Text} (works : Works host before after)
      (taken : host.write after text = none) : Works host before (.wrote text :: after)
  | ran {between after : History} {text : Text} {depth frames : Nat}
      (works : Works host before between)
      (told : Told host (.command text) depth frames between none after)
      (taken : host.run (.ran text :: after) text = none) : Works host before (.ran text :: after)

/-- What an evaluation has added to a history when it fails. No command is in progress, or a handler
refused to be told of it and it has not been given, or it has been given and was refused itself. -/
inductive Breaks (host : Host) (before : History) (failure : Failure) : History → Prop where
  | idle {after : History} (works : Works host before after) : Breaks host before failure after
  | untold {between after : History} {text : Text} {depth frames : Nat}
      (works : Works host before between)
      (told : Told host (.command text) depth frames between (some failure) after) :
      Breaks host before failure after
  | refused {between after : History} {text : Text} {depth frames : Nat}
      (works : Works host before between)
      (told : Told host (.command text) depth frames between none after)
      (refused : host.run (.ran text :: after) text = some failure) :
      Breaks host before failure (.ran text :: after)

namespace Machine

variable {host : Host} {before : History}

/-- Calling handlers is asking for the refusal that comes of it. -/
theorem called_handleAll (event : Event) (handlers : List Handler) (m : Machine) :
    ∃ refusal after,
      Called event m.store.stack.length m.frames.length handlers m.history refusal after ∧
        handleAll event handlers m = ask (fun _ => refusal) { m with history := after } := by
  induction handlers generalizing m with
  | nil => exact ⟨none, m.history, .all, rfl⟩
  | cons handler others ih =>
    let effect : Effect := .handled handler.tag event m.store.stack.length m.frames.length
    let called : Machine := { m with history := effect :: m.history }
    have asked : handleAll event (handler :: others) m =
        (ask handler.respond >>= fun _ => handleAll event others) called := rfl
    cases answered : handler.respond (effect :: m.history) with
    | none =>
      obtain ⟨refusal, after, rest, handled⟩ := ih called
      refine ⟨refusal, after, .agrees answered rest, ?_⟩
      have agreed : ask handler.respond called = .ok () called := by
        simp only [ask, called, answered]
      rw [asked, bind_ok agreed, handled]
    | some failure =>
      refine ⟨some failure, effect :: m.history, .refuses answered, ?_⟩
      have refused : ask handler.respond called = .error failure called := by
        simp only [ask, called, answered]
      rw [asked, bind_error refused]
      rfl

/-- Telling of an event changes nothing but the history. -/
theorem told_emit (host : Host) (event : Event) (m : Machine) :
    ∃ refusal after,
      Told host event m.store.stack.length m.frames.length m.history refusal after ∧
        emit host event m = ask (fun _ => refusal) { m with history := after } :=
  called_handleAll event _ { m with history := .emitted event m.frames.length :: m.history }

/-- An activity that does no more than an evaluation may do while nothing is refused. -/
abbrev Working {α : Type} (host : Host) (before : History) (x : Activity α) : Prop :=
  Preserves (fun m => Works host before m.history) x

/-- An activity that does what an evaluation may do, and may break it off. -/
abbrev Breakable {α : Type} (host : Host) (before : History) (x : Activity α) : Prop :=
  Secures (fun m => Works host before m.history)
    (fun failure m => Breaks host before failure m.history) x

section working
variable {α : Type} {x : Activity α}

theorem working_of_keeps (hx : Keeps Machine.history x) : Working host before x :=
  hx.preserves (Works host before)

theorem Working.breakable (hx : Working host before x) : Breakable host before x :=
  hx.secures fun _ _ works => .idle works

theorem breakable_of_keeps (hx : Keeps Machine.history x) : Breakable host before x :=
  (working_of_keeps hx).breakable

theorem working_ascribing (name : Text) (hx : Working host before x) :
    Working host before (ascribing name x) := by
  intro m works
  have same : leftState (ascribing name x m) = leftState (x m) := by
    unfold ascribing
    cases x m <;> rfl
  rw [same]
  exact ⟨(hx m works).1, fun _ _ _ => trivial⟩

theorem working_print (p : Print) : Working host before (print host p) := by
  intro m works
  refine ⟨?_, fun _ _ _ => trivial⟩
  unfold print
  cases printed m.store.outputBase p with
  | error b => exact works
  | ok text =>
    cases answered : host.write m.history text with
    | none =>
      simp only [bind_apply, ask, answered]
      exact works.wrote answered
    | some failure =>
      simp only [bind_apply, ask, answered]
      exact works

theorem working_printAll (prints : List Print) : Working host before (printAll host prints) := by
  induction prints with
  | nil => exact .pure trivial
  | cons p rest ih => exact (working_print p).bind fun _ _ => ih

theorem working_perform (name : Text) (next : Option Text) (turned : Bool) :
    Working host before (perform host name next turned) := by
  refine Upholds.bind (working_of_keeps fun m => ?_) fun response _ =>
    (working_ascribing name (working_printAll response.prints)).bind fun _ _ => .pure trivial
  exact keeps_onStore (fun _ _ => rfl) _ m

theorem breakable_command (text : Text) : Breakable host before (command host text) := by
  intro m works
  obtain ⟨refusal, after, told, emitted⟩ := told_emit host (.command text) m
  unfold command
  rw [bind_apply, emitted]
  cases refusal with
  | some failure => exact .untold works told
  | none =>
    cases answered : host.run (.ran text :: after) text with
    | none =>
      simp only [bind_apply, note, update, ask, answered]
      exact works.ran told answered
    | some failure =>
      simp only [bind_apply, note, update, ask, answered]
      exact .refused works told answered

end working

theorem breakable_act (name : Text) (next : Option Text) (frame : Frame) (callers : List Frame)
    (action : Action) : Breakable host before (act host name next frame callers action) := by
  cases action with
  | proceed | skipName | quit | comment | negate => exact .pure _
  | callRegister | callTop =>
    exact breakable_of_keeps (.bind (keeps_onStore (fun _ _ => rfl) _) fun _ =>
      keeps_invoke (fun _ _ => rfl) _ _)
  | numeral =>
    exact breakable_of_keeps (.bind (keeps_onStore (fun _ _ => rfl) _) fun _ =>
      .bind (keeps_onStore (fun _ _ => rfl) _) fun _ => .pure _)
  | string =>
    exact breakable_of_keeps (.bind (keeps_onStore (fun _ _ => rfl) _) fun _ => .pure _)
  | command =>
    exact (breakable_of_keeps fun _ => rfl).bind fun _ =>
      (breakable_command _).bind fun _ => .pure _
  | unknown =>
    unfold act
    exact breakable_of_keeps (keeps_onStore (fun _ _ => rfl) _)

theorem breakable_execute (name : Text) (cursor : Cursor) (frame : Frame) (callers : List Frame) :
    Breakable host before (execute host name cursor frame callers) :=
  (breakable_of_keeps fun _ => rfl).bind fun _ => (working_perform _ _ _).breakable.bind fun _ =>
    (breakable_of_keeps fun _ => rfl).bind fun _ => breakable_act _ _ _ _ _

theorem breakable_step (host : Host) (calling : Calling) (before : History) :
    Breakable host before (step host calling) := by
  intro m works
  cases frames : m.frames with
  | nil =>
    simp only [step, frames]
    exact works
  | cons frame callers =>
    cases pending : frame.cursor.peek? with
    | none =>
      rw [step_of_end frames pending]
      exact works
    | some ch =>
      have executes : Breakable host before
          (execute host [ch] (frame.cursor.advance 1) frame callers) := breakable_execute _ _ _ _
      have follows (move : Move) : Breakable host before
          (follow calling (frame.begin (frame.cursor.advance 1)) callers move) :=
        breakable_of_keeps (keeps_follow (fun _ _ => rfl) (fun _ _ => rfl) _ _ _)
      rw [step_of_pending frames pending]
      exact executes.bind follows m works

/-- An evaluation works, and breaks only when it fails. -/
theorem breakable_steps (host : Host) (calling : Calling) (before : History) (limit : Nat) :
    Breakable host before (steps host calling limit) := by
  induction limit with
  | zero => exact fun _ works => works
  | succ limit ih =>
    intro m works
    have first := breakable_step host calling before m works
    cases stepped : step host calling m with
    | error failure m' =>
      rw [stepped] at first
      simp only [steps, stepped]
      exact first
    | ok signal m' =>
      rw [stepped] at first
      cases signal with
      | some signal =>
        simp only [steps, stepped]
        exact first
      | none =>
        rw [steps_succ stepped]
        exact ih m' first

end Machine

end DeskCalculator
