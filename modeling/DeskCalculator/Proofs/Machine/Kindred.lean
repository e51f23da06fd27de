import Mathlib.Data.List.Forall2
import DeskCalculator.Proofs.Machine.Course
import DeskCalculator.Proofs.Machine.Failing
import DeskCalculator.Proofs.Machine.Quit

/-!
Machines that differ in their journals alone. They have the same store and the same instructions,
and they have done the same. A journal is only ever read for a traceback: for its step, and for the
instruction that a breakdown is put down to. So two such machines go on doing the same, if their
hosts do not ask for this instruction.
-/

namespace DeskCalculator

/-- A fault without what only a journal can tell of it. -/
def Fault.unlogged (f : Fault) : Fault :=
  match f.cause with
  | .internal _ => { f with instruction := none }
  | _ => f

def Event.unlogged : Event → Event
  | onError f => onError f.unlogged
  | event => event

def Effect.unlogged : Effect → Effect
  | emitted event frames => emitted event.unlogged frames
  | handled tag event depth frames => handled tag event.unlogged depth frames
  | effect => effect

def Traceback.unlogged (t : Traceback) : Traceback :=
  { t with fault := t.fault.unlogged, step := none }

def RunFailure.unlogged : RunFailure → RunFailure
  | fault t => fault t.unlogged
  | breakdown b => breakdown b

/-- The same effects have been added to two histories, but for what only a journal can tell. -/
def GrownAlike (before before' after after' : History) : Prop :=
  ∃ new new', after = new ++ before ∧ after' = new' ++ before' ∧
    new.map Effect.unlogged = new'.map Effect.unlogged

/-- Hosts with the same services, one after `before` and the other after `before'`: they answer the
same to the same effects. -/
structure Host.Alike (host host' : Host) (before before' : History) : Prop where
  handlers : ∀ occasion, List.Forall₂ (fun handler handler' => handler.tag = handler'.tag ∧
      ∀ after after', GrownAlike before before' after after' →
        handler.respond after = handler'.respond after')
    (host.hooks.handlers occasion) (host'.hooks.handlers occasion)
  write : ∀ after after' text, GrownAlike before before' after after' →
    host.write after text = host'.write after' text
  run : ∀ after after' text, GrownAlike before before' after after' →
    host.run after text = host'.run after' text

section histories
variable {before before' after after' : History} {effect effect' : Effect}

theorem GrownAlike.refl (before before' : History) : GrownAlike before before' before before' :=
  ⟨[], [], rfl, rfl, rfl⟩

theorem GrownAlike.cons (h : GrownAlike before before' after after')
    (same : effect.unlogged = effect'.unlogged) :
    GrownAlike before before' (effect :: after) (effect' :: after') := by
  obtain ⟨new, new', rfl, rfl, alike⟩ := h
  refine ⟨effect :: new, effect' :: new', rfl, rfl, ?_⟩
  rw [List.map_cons, List.map_cons, same, alike]

theorem Event.occasion_eq {event event' : Event} (same : event.unlogged = event'.unlogged) :
    event.occasion = event'.occasion := by
  cases event <;> cases event' <;> first | rfl | cases same

/-- What a breakdown is put down to is all that its fault may have from a journal. -/
theorem Fault.unlogged_internal (b : Breakdown) (instruction instruction' : Option Text) :
    Fault.unlogged { cause := .internal b, instruction } =
      Fault.unlogged { cause := .internal b, instruction := instruction' } := rfl

end histories

namespace Machine

variable {α β : Type} {before before' : History} {host host' : Host} {m n m' n' : Machine}

/-- Machines that differ in nothing but their journals and their frames. -/
structure Kindred (before before' : History) (m n : Machine) : Prop where
  store : m.store = n.store
  overrides : m.overrides = n.overrides
  effects : GrownAlike before before' m.history n.history

/-- Machines that differ in nothing but their journals. -/
structure Twin (before before' : History) (m n : Machine) : Prop extends
    Kindred before before' m n where
  frames : m.frames = n.frames

/-- Activities that answer the same to twins, and leave twins whether they fail or not. -/
abbrev Twinned (before before' : History) (x y : Activity α) : Prop :=
  Follows (fun _ => False) (· = ·) (Twin before before') x y

theorem Twinned.pure (a : α) : Twinned before before' (pure a) (pure a) := Follows.pure rfl

theorem Twinned.bind {x y : Activity α} {g g' : α → Activity β} (hx : Twinned before before' x y)
    (hg : ∀ a, Twinned before before' (g a) (g' a)) :
    Twinned before before' (x >>= g) (y >>= g') :=
  Follows.bind hx fun a b same => by
    subst same
    exact hg a

theorem twinned_onStore (c : Calculation α) : Twinned before before' (onStore c) (onStore c) := by
  intro m n twin
  unfold onStore
  rw [twin.store]
  cases c n.store with
  | ok a store => exact .ok rfl { twin with store := rfl }
  | error failure store => exact .error { twin with store := rfl }

theorem twinned_setFrames (frames : List Frame) :
    Twinned before before' (setFrames frames) (setFrames frames) :=
  fun _ _ twin => .ok rfl { twin with frames := rfl }

theorem twinned_record (name : Text) (position : Nat) (action : Action) :
    Twinned before before' (record name position action) (record name position action) :=
  fun _ _ twin => .ok rfl { twin with }

theorem twinned_note {effect effect' : Machine → Effect}
    (same : ∀ m n, Twin before before' m n → (effect m).unlogged = (effect' n).unlogged) :
    Twinned before before' (note effect) (note effect') :=
  fun m n twin => .ok rfl { twin with effects := twin.effects.cons (same m n twin) }

theorem twinned_ask {answer answer' : History → Option Failure}
    (same : ∀ after after', GrownAlike before before' after after' →
      answer after = answer' after') :
    Twinned before before' (ask answer) (ask answer') := by
  intro m n twin
  unfold ask
  rw [same _ _ twin.effects]
  cases answer' n.history with
  | none => exact .ok rfl twin
  | some failure => exact .error twin

theorem twinned_ascribing (name : Text) {x y : Activity α} (h : Twinned before before' x y) :
    Twinned before before' (ascribing name x) (ascribing name y) := by
  intro m n twin
  have matched := h m n twin
  unfold ascribing
  generalize x m = first at matched
  generalize y n = second at matched
  cases matched with
  | ok answers states => exact .ok answers states
  | error states => exact .error states
  | lost failure => exact failure.elim

theorem twinned_handleAll {event event' : Event} (same : event.unlogged = event'.unlogged)
    {handlers handlers' : List Handler}
    (alike : List.Forall₂ (fun handler handler' => handler.tag = handler'.tag ∧
      ∀ after after', GrownAlike before before' after after' →
        handler.respond after = handler'.respond after') handlers handlers') :
    Twinned before before' (handleAll event handlers) (handleAll event' handlers') := by
  induction alike with
  | nil => exact .pure _
  | cons each _ ih =>
    obtain ⟨tags, responds⟩ := each
    have told : Twinned before before' (handle event _) (handle event' _) :=
      (twinned_note fun m n twin => by simp only [Effect.unlogged, tags, same, twin.store,
        twin.frames]).bind fun _ => twinned_ask responds
    exact told.bind fun _ => ih

theorem twinned_leave (signal : Signal) (callers : List Frame) :
    Twinned before before' (leave signal callers) (leave signal callers) := by
  intro m n twin
  unfold leave
  rw [twin.store]
  exact .ok rfl { twin with store := rfl, frames := rfl }

theorem twinned_quit (frame : Frame) (callers : List Frame) :
    Twinned before before' (quit frame callers) (quit frame callers) := by
  intro m n twin
  unfold quit
  rw [twin.store]
  split
  · exact twinned_leave _ _ _ _ { twin with store := rfl }
  · exact twinned_leave _ _ _ _ twin

theorem twinned_follow (calling : Calling) (frame : Frame) (callers : List Frame) (move : Move) :
    Twinned before before' (follow calling frame callers move)
      (follow calling frame callers move) := by
  cases move with
  | goOn | call => exact (twinned_setFrames _).bind fun _ => .pure _
  | quit => exact twinned_quit frame callers

theorem twinned_invoke (cursor : Cursor) (v : Value) :
    Twinned before before' (invoke cursor v) (invoke cursor v) := by
  cases v with
  | text t => exact .pure _
  | int | float => exact (twinned_onStore _).bind fun _ => .pure _

theorem twinned_respond (name : Text) (next : Option Text) (turned : Bool) :
    Twinned before before' (respond name next turned) (respond name next turned) := by
  intro m n twin
  rw [respond, respond, twin.overrides]
  exact twinned_onStore _ m n twin

section hosts
variable (alike : host.Alike host' before before')
include alike

theorem twinned_emit {event event' : Event} (same : event.unlogged = event'.unlogged) :
    Twinned before before' (emit host event) (emit host' event') := by
  refine (twinned_note fun m n twin => ?_).bind fun _ => ?_
  · simp only [Effect.unlogged, same, twin.frames]
  · rw [← Event.occasion_eq same]
    exact twinned_handleAll same (alike.handlers _)

theorem twinned_print (p : Print) : Twinned before before' (print host p) (print host' p) := by
  intro m n twin
  unfold print
  rw [twin.store]
  cases printed n.store.outputBase p with
  | error b => exact .error twin
  | ok text =>
    have asks : Twinned before before' (ask (host.write · text)) (ask (host'.write · text)) :=
      twinned_ask fun after after' => alike.write after after' text
    exact asks.bind (fun _ => twinned_note fun _ _ _ => rfl) m n twin

theorem twinned_printAll (prints : List Print) :
    Twinned before before' (printAll host prints) (printAll host' prints) := by
  induction prints with
  | nil => exact .pure _
  | cons p rest ih => exact (twinned_print alike p).bind fun _ => ih

theorem twinned_command (text : Text) :
    Twinned before before' (command host text) (command host' text) :=
  (twinned_emit alike rfl).bind fun _ => (twinned_note fun _ _ _ => rfl).bind fun _ =>
    twinned_ask fun after after' => alike.run after after' text

theorem twinned_perform (name : Text) (next : Option Text) (turned : Bool) :
    Twinned before before' (perform host name next turned) (perform host' name next turned) :=
  (twinned_respond _ _ _).bind fun _ =>
    (twinned_ascribing name (twinned_printAll alike _)).bind fun _ => .pure _

theorem twinned_act (name : Text) (next : Option Text) (frame : Frame) (callers : List Frame)
    (action : Action) :
    Twinned before before' (act host name next frame callers action)
      (act host' name next frame callers action) := by
  cases action with
  | proceed | skipName | quit | comment | negate => exact .pure _
  | callRegister | callTop => exact (twinned_onStore _).bind fun _ => twinned_invoke _ _
  | numeral => exact (twinned_onStore _).bind fun _ => (twinned_onStore _).bind fun _ => .pure _
  | string => exact (twinned_onStore _).bind fun _ => .pure _
  | command =>
    exact (twinned_setFrames _).bind fun _ => (twinned_command alike _).bind fun _ => .pure _
  | unknown =>
    unfold act
    exact twinned_onStore _

theorem twinned_execute (name : Text) (cursor : Cursor) (frame : Frame) (callers : List Frame) :
    Twinned before before' (execute host name cursor frame callers)
      (execute host' name cursor frame callers) :=
  (twinned_setFrames _).bind fun _ => (twinned_perform alike _ _ _).bind fun _ =>
    (twinned_record _ _ _).bind fun _ => twinned_act alike _ _ _ _ _

theorem twinned_step (calling : Calling) :
    Twinned before before' (step host calling) (step host' calling) := by
  intro m n twin
  cases frames : m.frames with
  | nil =>
    have frames' : n.frames = [] := twin.frames.symm.trans frames
    simp only [step, frames, frames']
    exact .ok rfl twin
  | cons frame callers =>
    have frames' : n.frames = frame :: callers := twin.frames.symm.trans frames
    cases pending : frame.cursor.peek? with
    | none =>
      rw [step_of_end frames pending, step_of_end frames' pending]
      exact .ok rfl { twin with frames := rfl }
    | some ch =>
      rw [step_of_pending frames pending, step_of_pending frames' pending]
      exact ((twinned_execute alike _ _ _ _).bind fun _ => twinned_follow _ _ _ _) m n twin

end hosts

section failing
variable {calling : Calling} {name : Text} {next : Option Text} {turned : Bool} {f : Fault}

theorem ascribed_of_ascribe {failure : Failure} (ascribed : failure.ascribe name = .fault f) :
    f.instruction ≠ none := by
  cases failure with
  | breakdown b => cases ascribed
  | fault f' =>
    cases ascribed
    cases f'.instruction <;> exact nofun

theorem ascribed_overridden {overrides : Overrides} {store store' : Store}
    (refused : overrides.perform name next turned store = .error (.fault f) store') :
    f.instruction ≠ none := by
  cases found : overrides.find? name with
  | some stub =>
    simp only [Overrides.perform, found] at refused
    split at refused
    · cases refused
      exact Option.some_ne_none name
    · cases refused
  | none =>
    rw [Overrides.perform_of_unreplaced found, Overrides.builtIn_perform] at refused
    split at refused
    · cases refused
      exact Option.some_ne_none name
    · cases performed : (Instruction.ofName name).perform next turned store with
      | ok response store₁ => simp [performed] at refused
      | error failure store₁ =>
        rw [performed] at refused
        exact ascribed_of_ascribe (EStateM.Result.error.inj refused).1

theorem ascribed_of_respond (refused : respond name next turned m = .error (.fault f) m') :
    f.instruction ≠ none := by
  simp only [respond, onStore] at refused
  split at refused
  · cases refused
  · rename_i performed
    cases refused
    exact ascribed_overridden performed

/-- The instruction in the traceback of a fault does not come from the journal but from the program:
it is the one that was to be executed. -/
theorem traced_of_step (failed : step host calling m = .error (.fault f) m') :
    (m'.traceback (.fault f)).fault.instruction = (f.instruction <|> m.pending?.map ([·])) := by
  obtain ⟨frame, callers, ch, cursor, frames, pending, executed, -⟩ := step_fails failed
  obtain ⟨raised, stage, logged, failing⟩ := failing_of_execute executed
  have journal := failing.journal
  have at_once (ascribed : f.instruction ≠ none) :
      (f.instruction <|> m'.journal.last) = (f.instruction <|> some [ch]) := by
    cases h : f.instruction with
    | none => exact absurd h ascribed
    | some => rfl
  change (f.instruction <|> m'.journal.last) = _
  rw [pending?_of_frames frames, pending]
  generalize told : Failure.fault f = failure at failing
  cases failing with
  | responding refused =>
    subst told
    exact at_once (ascribed_of_respond refused)
  | printing => exact at_once (ascribed_of_ascribe told.symm)
  | acting =>
    rw [if_pos rfl] at journal
    rw [journal.2]
    rfl

/-- Tracebacks of twins that have failed alike tell the same but for what comes from a journal. -/
theorem traceback_unlogged {failure : Failure} (frames : m'.frames = n'.frames)
    (same : ∀ f, failure = .fault f → (m'.traceback failure).fault.instruction =
      (n'.traceback failure).fault.instruction) :
    (m'.traceback failure).unlogged = (n'.traceback failure).unlogged := by
  have faults : (m'.traceback failure).fault.unlogged = (n'.traceback failure).fault.unlogged := by
    cases failure with
    | breakdown b => exact Fault.unlogged_internal b _ _
    | fault f => exact congrArg (fun i => Fault.unlogged { f with instruction := i }) (same f rfl)
  have places : (m'.traceback failure).places = (n'.traceback failure).places := by
    simp only [traceback, frames]
  simp only [Traceback.unlogged, faults, places]

end failing

/-- Steps of twins that have come to the same. -/
inductive Tied (before before' : History) : EStateM.Result Failure Machine (Option Signal) →
    EStateM.Result Failure Machine (Option Signal) → Prop where
  | going {m n : Machine} (twin : Twin before before' m n) :
      Tied before before' (.ok none m) (.ok none n)
  | ended (signal : Signal) {m n : Machine} (twin : Twin before before' m n) :
      Tied before before' (.ok (some signal) m) (.ok (some signal) n)
  | failed (failure : Failure) {m n : Machine} (twin : Twin before before' m n)
      (traced : (m.traceback failure).unlogged = (n.traceback failure).unlogged) :
      Tied before before' (.error failure m) (.error failure n)

section running
variable {calling : Calling} (alike : host.Alike host' before before')
include alike

theorem step_tied (twin : Twin before before' m n) :
    Tied before before' (step host calling m) (step host' calling n) := by
  have stepped := twinned_step alike calling m n twin
  generalize first : step host calling m = r at stepped
  generalize second : step host' calling n = r' at stepped
  cases stepped with
  | @ok signal signal' m' n' same twin' =>
    subst same
    cases signal with
    | none => exact .going twin'
    | some signal => exact .ended signal twin'
  | error twin' =>
    refine .failed _ twin' (traceback_unlogged twin'.frames ?_)
    rintro f rfl
    rw [traced_of_step first, traced_of_step second, pending?, pending?, twin.frames]
  | lost failure => exact failure.elim

theorem steps_tied (twin : Twin before before' m n) (limit : Nat) :
    Tied before before' (steps host calling limit m) (steps host' calling limit n) := by
  induction limit generalizing m n with
  | zero => exact .going twin
  | succ limit ih =>
    have stepped : Tied before before' (step host calling m) (step host' calling n) :=
      step_tied alike twin
    simp only [steps]
    generalize step host calling m = r at stepped
    generalize step host' calling n = r' at stepped
    cases stepped with
    | going twin' => exact ih twin'
    | ended signal twin' => exact .ended signal twin'
    | failed failure twin' traced => exact .failed failure twin' traced

end running

/-- Ends of runs that have come to the same. -/
inductive Agreed (before before' : History) : Option (Except RunFailure Signal × Machine) →
    Option (Except RunFailure Signal × Machine) → Prop where
  | going : Agreed before before' none none
  | ended {result result' : Except RunFailure Signal} {m n : Machine}
      (results : result.mapError RunFailure.unlogged = result'.mapError RunFailure.unlogged)
      (kindred : Kindred before before' m n) :
      Agreed before before' (some (result, m)) (some (result', n))

section runs
variable {calling : Calling} {name source : Text} (alike : host.Alike host' before before')
include alike

theorem conclude_agreed {event event' : Event} {result result' : Except RunFailure Signal}
    (same : event.unlogged = event'.unlogged)
    (results : result.mapError RunFailure.unlogged = result'.mapError RunFailure.unlogged)
    (twin : Twin before before' m n) :
    Agreed before before' (some (conclude host event result m))
      (some (conclude host' event' result' n)) := by
  have told := twinned_emit alike same m n twin
  unfold conclude
  generalize emit host event m = first at told
  generalize emit host' event' n = second at told
  cases told with
  | ok _ twin' => exact .ended results twin'.toKindred
  | error twin' => exact .ended rfl twin'.toKindred
  | lost failure => exact failure.elim

theorem verdict_agreed {r r' : EStateM.Result Failure Machine (Option Signal)}
    (tied : Tied before before' r r') :
    Agreed before before' (verdict host r) (verdict host' r') := by
  cases tied with
  | going => exact .going
  | ended signal twin => exact conclude_agreed alike rfl rfl twin
  | @failed failure m n twin traced =>
    have faults := congrArg Traceback.fault traced
    exact conclude_agreed alike (congrArg Event.onError faults)
      (congrArg (fun t => Except.error (RunFailure.fault t)) traced) { twin with frames := rfl }

/-- The start of a program is told of alike. -/
theorem start_tied (source : Text) (kindred : Kindred before before' m n) :
    Matches (fun _ => False) (· = ·) (Twin before before')
      (emit host (.programStart source) m.cleared) (emit host' (.programStart source) n.cleared) :=
  twinned_emit alike rfl m.cleared n.cleared
    { kindred with store := congrArg (fun s : Store => { s with unwind := 0 }) kindred.store
                   frames := rfl }

theorem run_agreed (kindred : Kindred before before' m n) (limit : Nat) :
    Agreed before before' (run host calling limit name source m)
      (run host' calling limit name source n) := by
  have told := start_tied alike source kindred
  generalize first : emit host (.programStart source) m.cleared = r at told
  generalize second : emit host' (.programStart source) n.cleared = r' at told
  cases told with
  | error twin =>
    rw [run_of_refused first, run_of_refused second]
    exact .ended rfl twin.toKindred
  | @ok _ _ m' n' _ twin =>
    rw [run_of_told first, run_of_told second]
    have framed : Twin before before' { m' with frames := [Frame.ofText name source] }
        { n' with frames := [Frame.ofText name source] } := { twin with frames := rfl }
    exact verdict_agreed alike (steps_tied alike framed limit)
  | lost failure => exact failure.elim

end runs

end Machine

end DeskCalculator
