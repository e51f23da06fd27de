import DeskCalculator.Proofs.Machine.Kindred
import DeskCalculator.Proofs.Validity

/-!
The journal. A run enters in it, in order and numbered on from where it stood, the instructions
that have been dispatched, and nothing else. Nothing that a session does depends on what stands in
it. So a session that has been reset goes on like a new one.
-/

namespace DeskCalculator

/-- An instruction that has been dispatched, without a number. -/
structure Dispatch where
  frames : Nat
  instruction : Text
  position : Nat
  action : Action
  depth : Nat
  deriving DecidableEq, Repr

def Dispatch.entry (step : Nat) (d : Dispatch) : Entry :=
  { step, frames := d.frames, instruction := d.instruction, position := d.position,
    action := d.action, depth := d.depth }

namespace Journal

/-- A journal in which `log` has been entered, the first one first. Only a verbose one keeps the
entries; they are numbered on from where it stood. -/
def extended (j : Journal) (log : List Dispatch) : Journal :=
  { j with
    next := j.next + log.length
    last := (log.getLast?.map (·.instruction)).or j.last
    entries :=
      if j.verbose then (log.mapIdx fun i d => d.entry (j.next + i)).reverse ++ j.entries
      else j.entries }

@[simp] theorem extended_nil (j : Journal) : j.extended [] = j := by
  simp [extended]

theorem extended_append (j : Journal) (log later : List Dispatch) :
    j.extended (log ++ later) = (j.extended log).extended later := by
  have last : ((log ++ later).getLast?.map (·.instruction)).or j.last =
      (later.getLast?.map (·.instruction)).or ((log.getLast?.map (·.instruction)).or j.last) := by
    rw [List.getLast?_append]
    cases later.getLast? <;> rfl
  have numbered (i : Nat) : j.next + (i + log.length) = j.next + log.length + i := by omega
  simp only [extended, last, List.length_append, Nat.add_assoc]
  cases j.verbose with
  | false => rfl
  | true =>
    simp only [if_true, List.mapIdx_append, List.reverse_append, List.append_assoc, numbered,
      Nat.add_assoc]

theorem record_eq_extended (j : Journal) (d : Dispatch) :
    j.record d.frames d.instruction d.position d.action d.depth = j.extended [d] := by
  cases verbose : j.verbose <;> simp [record, extended, verbose, Dispatch.entry]

end Journal

namespace Machine

variable {host host' : Host} {calling : Calling} {m n m' : Machine} {before before' : History}
  {limit : Nat} {name source : Text}

/-- The instruction that a machine dispatches next, unless it fails while it is performed. -/
def dispatched? (host : Host) (m : Machine) : Option Dispatch :=
  match m.frames with
  | [] => none
  | frame :: callers =>
    match frame.cursor.peek? with
    | none => none
    | some ch =>
      match perform host [ch] ((frame.cursor.advance 1).peek?.map ([·])) frame.turned
          (m.begun frame callers) with
      | .error _ _ => none
      | .ok action m =>
        some { frames := callers.length + 1, instruction := [ch], position := frame.cursor.index,
               action, depth := m.store.stack.length }

/-- The instructions that some steps dispatch, in order. -/
def dispatches (host : Host) (calling : Calling) : Nat → Machine → List Dispatch
  | 0, _ => []
  | limit + 1, m =>
    (m.dispatched? host).toList ++
      match step host calling m with
      | .ok none m => dispatches host calling limit m
      | _ => []

/-- A machine that has begun with a program. -/
def started (host : Host) (name source : Text) (m : Machine) : Machine :=
  { leftState (emit host (.programStart source) m.cleared) with
    frames := [Frame.ofText name source] }

/-- The instructions that a run dispatches. A run whose start is refused dispatches none. -/
def dispatchesOf (host : Host) (limit : Nat) (name source : Text) (m : Machine) : List Dispatch :=
  match emit host (.programStart source) m.cleared with
  | .error _ _ => []
  | .ok () _ => dispatches host .flat limit (m.started host name source)

section law
variable {frame : Frame} {callers : List Frame} {ch : CodePoint} {action : Action}

theorem keeps_journal_perform (name : Text) (next : Option Text) (turned : Bool) :
    Keeps Machine.journal (perform host name next turned) :=
  keeps_perform (fun _ _ => rfl) (fun _ _ => rfl) host _ _ _

theorem keeps_frames_perform (name : Text) (next : Option Text) (turned : Bool) :
    Keeps Machine.frames (perform host name next turned) :=
  keeps_perform (fun _ _ => rfl) (fun _ _ => rfl) host _ _ _

/-- An instruction that has been performed is recorded before it acts. -/
theorem execute_of_performed
    (performed : perform host [ch] ((frame.cursor.advance 1).peek?.map ([·])) frame.turned
      (m.begun frame callers) = .ok action m') :
    execute host [ch] (frame.cursor.advance 1) frame callers m =
      act host [ch] ((frame.cursor.advance 1).peek?.map ([·]))
        (frame.begin (frame.cursor.advance 1)) callers action
        { m' with journal := m'.journal.record m'.frames.length [ch] frame.cursor.index action
                    m'.store.stack.length } := by
  have entered : setFrames (frame.begin (frame.cursor.advance 1) :: callers) m =
      .ok () (m.begun frame callers) := rfl
  simp only [execute]
  rw [bind_ok entered, bind_ok performed]
  rfl

/-- A step enters in the journal the instruction that it dispatches. -/
theorem journal_of_step (host : Host) (calling : Calling) (m : Machine) :
    (leftState (step host calling m)).journal =
      m.journal.extended (m.dispatched? host).toList := by
  cases frames : m.frames with
  | nil => simp [step, dispatched?, frames, leftState]
  | cons frame callers =>
    cases pending : frame.cursor.peek? with
    | none =>
      rw [step_of_end frames pending]
      simp [dispatched?, frames, pending, leftState]
    | some ch =>
      rw [step_of_pending frames pending]
      simp only [dispatched?, frames, pending]
      cases performed : perform host [ch] ((frame.cursor.advance 1).peek?.map ([·])) frame.turned
          (m.begun frame callers) with
      | error failure m₁ =>
        have refused : execute host [ch] (frame.cursor.advance 1) frame callers m =
            .error failure m₁ :=
          bind_eq_error.mpr (.inr ⟨(), m.begun frame callers, rfl,
            bind_eq_error.mpr (.inl performed)⟩)
        rw [bind_error refused]
        exact ((keeps_journal_perform _ _ _).of_error performed).trans (Journal.extended_nil _).symm
      | ok action m₁ =>
        have kept := (keeps_journal_perform _ _ _).of_ok performed
        have journal : m₁.journal = m.journal := kept
        have height : m₁.frames.length = callers.length + 1 :=
          congrArg List.length ((keeps_frames_perform _ _ _).of_ok performed)
        have acts : Keeps Machine.journal (act host [ch] ((frame.cursor.advance 1).peek?.map ([·]))
            (frame.begin (frame.cursor.advance 1)) callers action >>=
              follow calling (frame.begin (frame.cursor.advance 1)) callers) :=
          .bind (keeps_journal_act _ _ _) fun _ =>
            keeps_follow (fun _ _ => rfl) (fun _ _ => rfl) _ _ _
        rw [bind_apply, execute_of_performed performed, ← bind_apply, acts, journal, height]
        exact Journal.record_eq_extended _ ⟨_, _, _, _, _⟩

/-- Steps enter in the journal what they dispatch. -/
theorem journal_of_steps (host : Host) (calling : Calling) (limit : Nat) (m : Machine) :
    (leftState (steps host calling limit m)).journal =
      m.journal.extended (dispatches host calling limit m) := by
  induction limit generalizing m with
  | zero => exact (Journal.extended_nil _).symm
  | succ limit ih =>
    have first := journal_of_step host calling m
    simp only [steps, dispatches, Journal.extended_append, ← first]
    cases step host calling m with
    | error failure m₁ => exact (Journal.extended_nil _).symm
    | ok signal m₁ =>
      cases signal with
      | none => exact ih m₁
      | some signal => exact (Journal.extended_nil _).symm

theorem journal_of_emit (host : Host) (event : Event) (m : Machine) :
    (leftState (emit host event m)).journal = m.journal :=
  (show Keeps Machine.journal (emit host event) from keeps_emit (fun _ _ => rfl) host event) m

theorem journal_of_verdict {r : EStateM.Result Failure Machine (Option Signal)}
    {result : Except RunFailure Signal} (concluded : verdict host r = some (result, m)) :
    m.journal = (leftState r).journal :=
  kept_of_verdict (fun _ _ => rfl) (fun _ _ => rfl) concluded

/-- A run enters in the journal what it dispatches. -/
theorem journal_of_run {result : Except RunFailure Signal}
    (ran : run host .flat limit name source m = some (result, m')) :
    m'.journal = m.journal.extended (dispatchesOf host limit name source m) := by
  have begun := journal_of_emit host (.programStart source) m.cleared
  unfold dispatchesOf started
  cases told : emit host (.programStart source) m.cleared with
  | error failure m₁ =>
    rw [run_of_refused told] at ran
    cases ran
    rw [told] at begun
    exact begun.trans (Journal.extended_nil _).symm
  | ok _ m₁ =>
    rw [run_of_told told] at ran
    rw [told] at begun
    refine (journal_of_verdict ran).trans ((journal_of_steps _ _ _ _).trans ?_)
    exact congrArg (Journal.extended · _) begun

end law

section twins
variable (alike : host.Alike host' before before')
include alike

/-- Twins dispatch the same. -/
theorem dispatched?_twin (twin : Twin before before' m n) :
    m.dispatched? host = n.dispatched? host' := by
  unfold dispatched?
  rw [← twin.frames]
  cases m.frames with
  | nil => rfl
  | cons frame callers =>
    cases pending : frame.cursor.peek? with
    | none => simp only [pending]
    | some ch =>
      have begun : Twin before before' (m.begun frame callers) (n.begun frame callers) :=
        { twin with frames := rfl }
      have performed := twinned_perform alike [ch] ((frame.cursor.advance 1).peek?.map ([·]))
        frame.turned _ _ begun
      simp only [pending]
      generalize perform host [ch] ((frame.cursor.advance 1).peek?.map ([·])) frame.turned
        (m.begun frame callers) = r at performed
      generalize perform host' [ch] ((frame.cursor.advance 1).peek?.map ([·])) frame.turned
        (n.begun frame callers) = r' at performed
      cases performed with
      | ok same twin' =>
        subst same
        simp only [twin'.store]
      | error => rfl
      | lost failure => exact failure.elim

theorem dispatches_twin (twin : Twin before before' m n) (limit : Nat) :
    dispatches host calling limit m = dispatches host' calling limit n := by
  induction limit generalizing m n with
  | zero => rfl
  | succ limit ih =>
    have stepped : Tied before before' (step host calling m) (step host' calling n) :=
      step_tied alike twin
    simp only [dispatches, dispatched?_twin alike twin]
    generalize step host calling m = r at stepped
    generalize step host' calling n = r' at stepped
    cases stepped with
    | going twin' => exact congrArg _ (ih twin')
    | ended | failed => rfl

theorem started_twin (kindred : Kindred before before' m n) (name source : Text) :
    Twin before before' (m.started host name source) (n.started host' name source) := by
  have told := start_tied alike source kindred
  unfold started
  generalize emit host (.programStart source) m.cleared = r at told
  generalize emit host' (.programStart source) n.cleared = r' at told
  cases told with
  | ok _ twin => exact { twin with frames := rfl }
  | error twin => exact { twin with frames := rfl }
  | lost failure => exact failure.elim

theorem dispatchesOf_kindred (kindred : Kindred before before' m n) :
    dispatchesOf host limit name source m = dispatchesOf host' limit name source n := by
  have told := start_tied alike source kindred
  have begun := started_twin alike kindred name source
  unfold dispatchesOf
  generalize emit host (.programStart source) m.cleared = r at told
  generalize emit host' (.programStart source) n.cleared = r' at told
  cases told with
  | ok _ twin => exact dispatches_twin alike begun limit
  | error twin => rfl
  | lost failure => exact failure.elim

end twins

end Machine

namespace Session

/-- What can be done with a session. -/
inductive Task where
  | run (name source : Text)
  | push (v : Value)
  | reset
  deriving DecidableEq, Repr

/-- Does a task, which only gives a result if it is a run. -/
def carryOut (host : Host) (limit : Nat) (s : Session) :
    Task → Option (Option (Except RunFailure Signal) × Session)
  | .run name source => (s.run host limit name source).map fun (result, s) => (some result, s)
  | .push v => some (none, s.push v)
  | .reset => some (none, s.reset)

/-- Does tasks in order and gives the results of the runs. There is nothing when a run takes more
than `limit` steps. -/
def carryOutAll (host : Host) (limit : Nat) (s : Session) :
    List Task → Option (List (Except RunFailure Signal) × Session)
  | [] => some ([], s)
  | task :: tasks =>
    match s.carryOut host limit task with
    | none => none
    | some (result, s) =>
      (s.carryOutAll host limit tasks).map fun (results, s) => (result.toList ++ results, s)

/-- The instructions that a task dispatches. -/
def dispatches (host : Host) (limit : Nat) (s : Session) : Task → List Dispatch
  | .run name source => Machine.dispatchesOf host limit name source s.machine
  | .push _ | .reset => []

/-- The instructions that tasks dispatch, in order. -/
def dispatchesAll (host : Host) (limit : Nat) (s : Session) : List Task → List Dispatch
  | [] => []
  | task :: tasks =>
    s.dispatches host limit task ++
      match s.carryOut host limit task with
      | none => []
      | some (_, s) => s.dispatchesAll host limit tasks

open Machine

/-- What two sessions come to that have been given the same tasks: neither has come to the end of
them; or the results are the same, but for what only a journal can tell, as are the stores, the
instructions and the effects, and both journals have got `log`. From there any program goes on the
same, step by step, and is entered in the journals the same. -/
inductive Concordant (host host' : Host) (before before' : History) (j j' : Journal)
    (log : List Dispatch) : Option (List (Except RunFailure Signal) × Session) →
    Option (List (Except RunFailure Signal) × Session) → Prop where
  | unended : Concordant host host' before before' j j' log none none
  | ended {results results' : List (Except RunFailure Signal)} {s s' : Session}
      (same : results.map (·.mapError RunFailure.unlogged) =
        results'.map (·.mapError RunFailure.unlogged))
      (kindred : Kindred before before' s.machine s'.machine)
      (journal : s.machine.journal = j.extended log)
      (journal' : s'.machine.journal = j'.extended log)
      (underway : ∀ name source k,
        Tied before before' (stepsOf host .flat name source s.machine k)
          (stepsOf host' .flat name source s'.machine k) ∧
        let more := Machine.dispatches host .flat k (s.machine.started host name source)
        (leftState (stepsOf host .flat name source s.machine k)).journal =
            s.machine.journal.extended more ∧
          (leftState (stepsOf host' .flat name source s'.machine k)).journal =
            s'.machine.journal.extended more) :
      Concordant host host' before before' j j' log (some (results, s)) (some (results', s'))

section concordance
variable {host host' : Host} {before before' : History} {limit : Nat} {name source : Text}
  {s s' : Session}

theorem exists_of_run {result : Except RunFailure Signal} {m : Machine}
    (ran : s.machine.run host .flat limit name source = some (result, m)) :
    ∃ t : Session, s.run host limit name source = some (result, t) ∧ t.machine = m := by
  unfold Session.run
  rw [ran, Option.map_some]
  dsimp only
  split
  · exact ⟨_, rfl, rfl⟩
  · exact ⟨_, rfl, rfl⟩

theorem journal_of_stepsOf (m : Machine) (k : Nat) :
    (leftState (stepsOf host .flat name source m k)).journal =
      m.journal.extended (Machine.dispatches host .flat k (m.started host name source)) :=
  (journal_of_steps host .flat k (m.started host name source)).trans
    (congrArg (Journal.extended · _) (journal_of_emit host (.programStart source) m.cleared))

variable (alike : host.Alike host' before before')
include alike

/-- A task comes to the same for both sessions, and is entered in both journals. -/
theorem carryOut_kindred (kindred : Kindred before before' s.machine s'.machine) (limit : Nat)
    (task : Task) :
    (s.carryOut host limit task = none ∧ s'.carryOut host' limit task = none) ∨
      ∃ result result' t t', s.carryOut host limit task = some (result, t) ∧
        s'.carryOut host' limit task = some (result', t') ∧
        result.map (·.mapError RunFailure.unlogged) =
          result'.map (·.mapError RunFailure.unlogged) ∧
        Kindred before before' t.machine t'.machine ∧
        t.machine.journal = s.machine.journal.extended (s.dispatches host limit task) ∧
        t'.machine.journal = s'.machine.journal.extended (s.dispatches host limit task) := by
  cases task with
  | push v =>
    have pushed : Kindred before before' (s.push v).machine (s'.push v).machine :=
      { kindred with store := by simp only [push, kindred.store] }
    exact .inr ⟨none, none, _, _, rfl, rfl, rfl, pushed, (Journal.extended_nil _).symm,
      (Journal.extended_nil _).symm⟩
  | reset =>
    have renewed : Kindred before before' s.reset.machine s'.reset.machine :=
      { kindred with store := rfl, overrides := rfl }
    exact .inr ⟨none, none, _, _, rfl, rfl, rfl, renewed, (Journal.extended_nil _).symm,
      (Journal.extended_nil _).symm⟩
  | run name source =>
    have agreed : Agreed before before' (s.machine.run host .flat limit name source)
        (s'.machine.run host' .flat limit name source) := run_agreed alike kindred limit
    generalize first : Machine.run host .flat limit name source s.machine = r at agreed
    generalize second : Machine.run host' .flat limit name source s'.machine = r' at agreed
    cases agreed with
    | going =>
      have endless : s.carryOut host limit (.run name source) = none := by
        simp only [carryOut, Session.run, first, Option.map_none]
      have endless' : s'.carryOut host' limit (.run name source) = none := by
        simp only [carryOut, Session.run, second, Option.map_none]
      exact .inl ⟨endless, endless'⟩
    | @ended result result' m n same kindred' =>
      have logged := journal_of_run first
      have logged' := journal_of_run second
      rw [← dispatchesOf_kindred alike kindred] at logged'
      obtain ⟨t, ran, rfl⟩ := exists_of_run first
      obtain ⟨t', ran', rfl⟩ := exists_of_run second
      refine .inr ⟨some result, some result', t, t', ?_, ?_, congrArg some same, kindred', logged,
        logged'⟩
      · simp only [carryOut, ran, Option.map_some]
      · simp only [carryOut, ran', Option.map_some]

theorem carryOutAll_concordant (kindred : Kindred before before' s.machine s'.machine)
    (tasks : List Task) :
    Concordant host host' before before' s.machine.journal s'.machine.journal
      (s.dispatchesAll host limit tasks) (s.carryOutAll host limit tasks)
      (s'.carryOutAll host' limit tasks) := by
  induction tasks generalizing s s' with
  | nil =>
    refine .ended rfl kindred (Journal.extended_nil _).symm (Journal.extended_nil _).symm ?_
    intro name source k
    have started := started_twin alike kindred name source
    refine ⟨steps_tied alike started k, journal_of_stepsOf s.machine k, ?_⟩
    rw [dispatches_twin alike started]
    exact journal_of_stepsOf s'.machine k
  | cons task tasks ih =>
    obtain ⟨endless, endless'⟩ | ⟨result, result', t, t', done, done', same, kindred', journal,
      journal'⟩ := carryOut_kindred alike kindred limit task
    · simp only [carryOutAll, endless, endless']
      exact .unended
    · have rest := ih kindred'
      simp only [carryOutAll, dispatchesAll, done, done']
      rw [journal, journal'] at rest
      generalize t.carryOutAll host limit tasks = r at rest
      generalize t'.carryOutAll host' limit tasks = r' at rest
      cases rest with
      | unended => exact .unended
      | @ended results results' u u' sames kindreds journals journals' underway =>
        refine .ended ?_ kindreds ?_ ?_ underway
        · rw [List.map_append, List.map_append, sames, ← Option.toList_map, same, Option.toList_map]
        · rw [journals, Journal.extended_append]
        · rw [journals', Journal.extended_append]

end concordance

/-- Two sessions that differ in their journals alone do the same, whatever they are given to do, and
enter the same in their journals. So does any session that has been reset and a new one. -/
theorem journals_unread (limit : Nat) (tasks : List Task) :
    (∀ (host host' : Host) (s s' : Session),
      host.Alike host' s.machine.history s'.machine.history →
      s.machine.store = s'.machine.store → s.machine.overrides = s'.machine.overrides →
      Concordant host host' s.machine.history s'.machine.history s.machine.journal
        s'.machine.journal (s.dispatchesAll host limit tasks) (s.carryOutAll host limit tasks)
        (s'.carryOutAll host' limit tasks)) ∧
    ∀ (host host' : Host) (s : Session) (verbose : Bool),
      host.Alike host' s.machine.history [] →
      Concordant host host' s.machine.history [] s.machine.journal { verbose }
        (s.reset.dispatchesAll host limit tasks) (s.reset.carryOutAll host limit tasks)
        ((start verbose).carryOutAll host' limit tasks) := by
  constructor
  · intro host host' s s' alike store overrides
    exact carryOutAll_concordant alike ⟨store, overrides, .refl _ _⟩ tasks
  · intro host host' s verbose alike
    have renewed : Kindred s.machine.history [] s.reset.machine (start verbose).machine :=
      ⟨rfl, rfl, .refl _ _⟩
    exact carryOutAll_concordant alike renewed tasks

/-- Nothing can be written here, so `p` breaks down. This is put down to what was logged last,
which a used journal knows and a new one does not. -/
theorem journals_unread_used :
    let busy : Breakdown := .external (Text.ofString "OSError") (Text.ofString "busy")
    let host : Host := { write := fun _ _ => some (.breakdown busy) }
    let last := Text.ofString "q"
    let used : Session := { machine := { journal := { verbose := true, next := 7, last } } }
    let tasks : List Task :=
      [.push (.int 1), .run [] (Text.ofString "p"), .run [] (Text.ofString "2")]
    let blamed (r : List (Except RunFailure Signal) × Session) : List (Option Text) :=
      (r.1.filterMap raised?).map (·.fault.instruction)
    (used.carryOutAll host 9 tasks).map blamed = some [some last] ∧
      ((start false).carryOutAll host 9 tasks).map blamed = some [none] ∧
      used.dispatchesAll host 9 tasks = [⟨1, Text.ofString "2", 0, .numeral, 1⟩] ∧
      Concordant host host [] [] used.machine.journal {} (used.dispatchesAll host 9 tasks)
        (used.carryOutAll host 9 tasks) ((start false).carryOutAll host 9 tasks) := by
  intro busy host last used tasks blamed
  have alike : host.Alike host [] [] :=
    { handlers := fun _ => .nil
      write := fun _ _ _ _ => rfl
      run := fun _ _ _ _ => rfl }
  refine ⟨by decide +kernel, by decide +kernel, by decide +kernel, ?_⟩
  exact (journals_unread 9 tasks).1 host host used (start false) alike rfl rfl

end Session

end DeskCalculator
