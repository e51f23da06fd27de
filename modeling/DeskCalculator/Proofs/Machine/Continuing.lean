import DeskCalculator.Proofs.Machine.Leading

/-!
What comes after a program that has come to no quit. A machine that executes the program in front of
more comes to where the text goes on, with the store and the outputs that the program leaves when it
is run alone. From there on it does not matter how it came there.
-/

namespace DeskCalculator.Machine

open Literal (OnNewLine)

variable {host : Host} {name source more : Text} {start m m' n n' : Machine} {calls : List Nat}
  {f g : Frame} {limit i : Nat} {signal : Signal}

/-- A program that comes to no quit. -/
def Quitless (host : Host) (name source : Text) (start : Machine) : Prop :=
  ∀ m calls, Underway host .flat name source start m calls →
    m.pending? ≠ some (.scalar 'q') ∧ m.pending? ≠ some (.scalar 'Q')

theorem Quitless.quits? (quitless : Quitless host name source start)
    (h : Underway host .flat name source start m calls) : m.quits? = none := by
  obtain ⟨q, Q⟩ := quitless m calls h
  exact quits?_of_unquitting q Q

/-- A step that does not quit neither sets the levels to end nor asks for any. -/
theorem step_unwind (builtIn : m.overrides = {}) (quitless : m.quits? = none)
    {signal : Option Signal} (stepped : step host .flat m = .ok signal m') :
    m'.store.unwind = m.store.unwind := by
  cases frames : m.frames with
  | nil =>
    simp only [step, frames] at stepped
    cases stepped
    rfl
  | cons f fs =>
    cases pending : f.cursor.peek? with
    | none =>
      rw [step_of_end frames pending] at stepped
      cases stepped
      rfl
    | some ch =>
      obtain ⟨-, move, m₁, executed, moves, followed⟩ :=
        step_quitless builtIn quitless frames pending stepped
      have levels := (quits?_of_pending frames pending).symm.trans quitless
      have kept : execute host [ch] (f.cursor.advance 1) f fs (m.setUnwind m.store.unwind) =
          through (setUnwind m.store.unwind) (execute host [ch] (f.cursor.advance 1) f fs m) :=
        execute_setUnwind builtIn levels
      have same : m.setUnwind m.store.unwind = m := rfl
      rw [same, executed, through_ok] at kept
      obtain ⟨-, unwound⟩ := EStateM.Result.ok.inj kept
      have left : m₁.store.unwind = m.store.unwind := congrArg (·.store.unwind) unwound
      cases move with
      | quit => exact absurd rfl moves
      | goOn | call =>
        cases followed
        exact left

/-- A program that does not quit is over when its text has ended. -/
theorem step_last (builtIn : m.overrides = {}) (quitless : m.quits? = none)
    (running : m.frames ≠ []) (stepped : step host .flat m = .ok (some signal) m') :
    ∃ f, m.frames = [f] ∧ f.cursor.rest = [] ∧ m' = { m with frames := [] } := by
  obtain ⟨f, fs, frames⟩ := List.exists_cons_of_ne_nil running
  cases rest : f.cursor.rest with
  | nil =>
    rw [step_of_end frames (congrArg List.head? rest)] at stepped
    obtain ⟨finished, left⟩ := EStateM.Result.ok.inj stepped
    obtain rfl : fs = [] := by
      cases fs with
      | nil => rfl
      | cons => cases finished
    exact ⟨f, frames, rest, left.symm⟩
  | cons ch t =>
    have pending : f.cursor.peek? = some ch := congrArg List.head? rest
    obtain ⟨going, -⟩ := step_quitless builtIn quitless frames pending stepped
    cases going

theorem Underway.unwind_eq (h : Underway host .flat name source start m calls)
    (builtIn : start.overrides = {}) (quitless : Quitless host name source start) :
    m.store.unwind = 0 := by
  induction h with
  | begin told =>
    have kept : Keeps Machine.store (emit host (.programStart source)) :=
      keeps_emit (fun _ _ => rfl) host _
    have unwound := congrArg Store.unwind (kept.of_ok told)
    exact unwound
  | step underway stepped ih =>
    have levels := quitless.quits? underway
    exact (step_unwind (underway.overrides.trans builtIn) levels stepped).trans ih

/-- Behind the end of the program, the text goes on. -/
theorem leads_end (host : Host) (matching : Matching (· = ·) m n)
    (leads : Leads source more m.frames n.frames) (frames : m.frames = [f])
    (ended : f.cursor.rest = []) :
    ∃ i n' g, steps host .flat i n = .ok none n' ∧ n'.frames = [g] ∧ g.Ready more ∧
      Matching (· = ·) m n' := by
  -- The program ends in its own text, or in a macro that has taken its place. Such a macro has taken
  -- over the caller as well, or has left it waiting and ends in one step.
  rw [frames] at leads
  generalize frames' : n.frames = ns at leads
  cases leads with
  | @within _ g text single single' joined turned turns =>
    have unturned : f.turned = false := by
      cases turning : f.turned with
      | false => rfl
      | true => exact absurd ended (turns turning)
    have comes : ComesTo host (Literal.trimmed g.cursor.rest) g.tailDepth n :=
      comes_trimmed matching.builtIn' frames' (turned.trans unturned)
    rw [Cursor.Joined, ended] at joined
    obtain ⟨i, journal, g', walked, rest, unturned', depth⟩ := comes
    have ready : g'.Ready more :=
      ⟨rest.trans joined.blank, fun _ => unturned', fun _ => depth.trans single'⟩
    exact ⟨i, _, g', walked, rfl, ready, { matching with }⟩
  | @cons _ g _ gs inStep leads =>
    have ended' : g.cursor.rest = [] := inStep.rest.trans ended
    cases leads with
    | done blank =>
      have ready : g.Ready more :=
        ⟨ended'.trans blank.symm, fun left => absurd ended' left, fun left => absurd ended' left⟩
      exact ⟨0, n, g, rfl, frames', ready, matching⟩
    | @waiting top ready =>
      refine ⟨1, { n with frames := [top] }, top, ?_, rfl, ready, { matching with }⟩
      rw [steps_one, step_of_end frames' (congrArg List.head? ended')]
      rfl

/-- A run that returns a signal has taken a last step that gives it. -/
theorem run_returns (obliging : host.Obliging)
    (ran : run host .flat limit name source start = some (.ok signal, m)) :
    ∃ m₁ calls m₂ history, Underway host .flat name source start m₁ calls ∧
      step host .flat m₁ = .ok (some signal) m₂ ∧ m = { m₂ with history } ∧
      history.filter Effect.isOutput = m₂.outputs := by
  obtain ⟨_, told, -⟩ := silent_emit obliging (.programStart source) start.cleared
  have begun : Underway host .flat name source start _ [] := .begin told
  rw [run_of_told told] at ran
  generalize walked : steps host .flat limit _ = r at ran
  cases r with
  | error failure m₂ =>
    obtain ⟨_, told', -⟩ :=
      silent_emit obliging (.onError (m₂.traceback failure).fault) { m₂ with frames := [] }
    simp only [verdict, conclude, told'] at ran
    cases ran
  | ok ended m₂ =>
    cases ended with
    | none => cases ran
    | some signal' =>
      obtain ⟨-, m₁, calls, -, underway, stepped⟩ := begun.last walked rfl
      obtain ⟨history, told', unseen⟩ := silent_emit obliging (.programEnd signal') m₂
      simp only [verdict, conclude, told'] at ran
      obtain ⟨same, rfl⟩ := Prod.mk.inj (Option.some.inj ran)
      obtain rfl := Except.ok.inj same
      exact ⟨m₁, calls, m₂, history, underway, stepped, rfl, unseen⟩

/-- A program that comes to no quit leaves no levels to end. -/
theorem run_unwind (obliging : host.Obliging) (builtIn : start.overrides = {})
    (quitless : Quitless host name source start)
    (ran : run host .flat limit name source start = some (.ok signal, m)) : m.store.unwind = 0 := by
  obtain ⟨m₁, calls, m₂, history, underway, stepped, rfl, -⟩ := run_returns obliging ran
  have levels := quitless.quits? underway
  exact (step_unwind (underway.overrides.trans builtIn) levels stepped).trans
    (underway.unwind_eq builtIn quitless)

section leading
variable (obliging : host.Obliging) (onNewLine : OnNewLine more)
  (closed : ∀ m calls, Underway host .flat name source start m calls → m.Closed source)
  (quitless : Quitless host name source start) (matching : Matching (· = ·) start.cleared n)
  (leads : Leads source more [Frame.ofText name source] n.frames)
include obliging onNewLine closed quitless matching leads

/-- As long as the program is underway, the machine that has more to execute follows it. -/
theorem underway_leads (h : Underway host .flat name source start m calls) :
    ∃ i n', steps host .flat i n = .ok none n' ∧ Matching (· = ·) m n' ∧
      Leads source more m.frames n'.frames := by
  induction h with
  | @begin m told =>
    obtain ⟨history, told', unseen⟩ := silent_emit obliging (.programStart source) start.cleared
    obtain ⟨-, rfl⟩ := EStateM.Result.ok.inj (told.symm.trans told')
    exact ⟨0, n, rfl, { matching with outputs := unseen.trans matching.outputs }, leads⟩
  | @step m m' calls underway stepped ih =>
    obtain ⟨i, n', walked, matching', leads'⟩ := ih
    obtain ⟨n'', stepped', matching'', leads''⟩ :=
      step_leads obliging onNewLine (closed m calls underway) (quitless.quits? underway) matching'
        leads' underway.running stepped
    refine ⟨i + 1, n'', ?_, matching'', leads''⟩
    rw [steps_add walked, steps_one, stepped']

/-- When the program is over, the machine that has more to execute comes to it, with what the program
has left. -/
theorem comes_to_more (builtIn : start.overrides = {})
    (ran : run host .flat limit name source start = some (.ok signal, m)) :
    ∃ i n' g, steps host .flat i n = .ok none n' ∧ n'.frames = [g] ∧ g.Ready more ∧
      Matching (· = ·) m n' := by
  obtain ⟨m₁, calls, m₂, history, underway, stepped, rfl, unseen⟩ := run_returns obliging ran
  have levels := quitless.quits? underway
  obtain ⟨f, frames, ended, rfl⟩ :=
    step_last (underway.overrides.trans builtIn) levels underway.running stepped
  obtain ⟨i, n₁, walked₁, matching₁, leads₁⟩ :=
    underway_leads obliging onNewLine closed quitless matching leads underway
  obtain ⟨j, n₂, g, walked₂, frames₂, ready, matching₂⟩ :=
    leads_end host matching₁ leads₁ frames ended
  refine ⟨i + j, n₂, g, ?_, frames₂, ready, ?_⟩
  · rw [steps_add walked₁, walked₂]
  · exact { matching₂ with outputs := unseen.trans matching₂.outputs }

end leading

/-- What is left of a run: the signal or the cause of its failure, the store and what has been put
out. -/
def summary (r : Option (Except RunFailure Signal × Machine)) :
    Option (Except RunFailure Signal × Store × History) :=
  r.map fun (result, m) => (result.mapError RunFailure.unascribed, m.store, m.outputs)

theorem summary_concur {r r' : Option (Except RunFailure Signal × Machine)}
    (concur : Concur (fun _ => False) (· = ·) r r') : summary r = summary r' := by
  cases concur with
  | going => rfl
  | ended results matching =>
    simp only [summary, Option.map_some, results, matching.store, matching.outputs]
  | lost dropped => exact dropped.elim

/-- Machines that have come to the same place with the same go on alike. -/
theorem summary_ready (obliging : host.Obliging) (frames : n.frames = [f]) (ready : f.Ready more)
    (frames' : n'.frames = [g]) (ready' : g.Ready more) (matching : Matching (· = ·) n n')
    (limit : Nat) :
    summary (verdict host (steps host .flat limit n)) =
      summary (verdict host (steps host .flat limit n')) := by
  have sameness : Store.Sameness (fun _ => False) (· = ·) := Store.sameness_eq fun _ none => none
  have alike : List.Forall₂ Frame.Alike n.frames n'.frames := by
    rw [frames, frames']
    exact .cons (ready.alike ready') .nil
  have abreast := steps_abreast sameness obliging matching alike
    (fun _ _ _ _ _ _ _ => Store.stable_eq _ _) limit
  exact summary_concur (verdict_concur obliging abreast)

/-- The outcomes of a machine are those of a machine that it comes to. -/
theorem exists_summary_steps {o : Except RunFailure Signal × Store × History}
    (walked : steps host .flat i m = .ok none n) :
    (∃ limit, summary (verdict host (steps host .flat limit m)) = some o) ↔
      ∃ limit, summary (verdict host (steps host .flat limit n)) = some o := by
  constructor
  · rintro ⟨limit, ended⟩
    obtain ⟨r, finished, -⟩ := Option.map_eq_some_iff.mp ended
    refine ⟨limit, ?_⟩
    rw [← steps_add walked, steps_stay rfl (goesOn_of_verdict finished) (Nat.le_add_left limit i)]
    exact ended
  · rintro ⟨limit, ended⟩
    refine ⟨i + limit, ?_⟩
    rw [steps_add walked]
    exact ended

/-- The run of a program comes to have nothing left but `more`, with the store and the outputs
of `m`. -/
def Continues (host : Host) (name source : Text) (start : Machine) (more : Text) (m : Machine) : Prop :=
  ∃ m₀ i n g, emit host (.programStart source) start.cleared = .ok () m₀ ∧
    steps host .flat i { m₀ with frames := [Frame.ofText name source] } = .ok none n ∧
    n.frames = [g] ∧ g.Ready more ∧ Matching (· = ·) m n

theorem Continues.builtIn (h : Continues host name source start more m) : m.overrides = {} := by
  obtain ⟨m₀, i, n, g, told, walked, frames, ready, reached⟩ := h
  exact reached.builtIn

/-- Programs that come to have the same left, with the same store and the same outputs, have the same
outcomes. -/
theorem Continues.outcomes {name' source' : Text} {start' : Machine} (obliging : host.Obliging)
    (h : Continues host name source start more m) (h' : Continues host name' source' start' more m)
    (o : Except RunFailure Signal × Store × History) :
    (∃ limit, summary (run host .flat limit name source start) = some o) ↔
      ∃ limit, summary (run host .flat limit name' source' start') = some o := by
  obtain ⟨m₀, i, n, f, told, walked, frames, ready, reached⟩ := h
  obtain ⟨m₀', i', n', g, told', walked', frames', ready', reached'⟩ := h'
  have alike : Matching (· = ·) n n' :=
    { store := reached.store.symm.trans reached'.store
      builtIn := reached.builtIn'
      builtIn' := reached'.builtIn'
      outputs := reached.outputs.symm.trans reached'.outputs }
  simp only [run_of_told told, run_of_told told']
  rw [exists_summary_steps walked, exists_summary_steps walked']
  simp only [summary_ready obliging frames ready frames' ready' alike]

/-- A program continues with itself, behind its own blanks and comments. -/
theorem continues_alone (obliging : host.Obliging) (builtIn : m.overrides = {})
    (unwound : m.store.unwind = 0) (name source : Text) :
    Continues host name source m (.scalar '\n' :: source) m := by
  obtain ⟨history, told, unseen⟩ := silent_emit obliging (.programStart source) m.cleared
  have store : m.cleared.store = m.store := by
    have same : m.store.setUnwind m.store.unwind = m.store := rfl
    rw [unwound] at same
    exact same
  have comes : ComesTo host (Literal.trimmed source) 1
      { m.cleared with history, frames := [Frame.ofText name source] } :=
    comes_trimmed (g := Frame.ofText name source) builtIn rfl rfl
  obtain ⟨i, journal, g, walked, rest, unturned, single⟩ := comes
  have ready : g.Ready (.scalar '\n' :: source) :=
    ⟨rest.trans (Literal.trimmed_newline source).symm, fun _ => unturned, fun _ => single⟩
  exact ⟨_, i, _, g, told, walked, rfl, ready,
    { store := store.symm, builtIn, builtIn' := builtIn, outputs := unseen.symm }⟩

/-- A text continues with what follows a program in it as the program has returned. -/
theorem continues_behind (obliging : host.Obliging) (onNewLine : OnNewLine more)
    (builtIn : start.overrides = {})
    (closed : ∀ m calls, Underway host .flat name source start m calls → m.Closed source)
    (quitless : Quitless host name source start)
    (returned : run host .flat limit name source start = some (.ok signal, m)) (name' : Text) :
    Continues host name' (source ++ more) start more m := by
  let whole : Frame := Frame.ofText name' (source ++ more)
  obtain ⟨history, told, unseen⟩ :=
    silent_emit obliging (.programStart (source ++ more)) start.cleared
  have matching : Matching (· = ·) start.cleared { start.cleared with history, frames := [whole] } :=
    { store := rfl, builtIn, builtIn' := builtIn, outputs := unseen.symm }
  have leads : Leads source more [Frame.ofText name source] [whole] :=
    .within rfl rfl rfl (.inside source) rfl (by simp [Frame.ofText])
  obtain ⟨i, n, g, walked, frames, ready, reached⟩ :=
    comes_to_more obliging onNewLine closed quitless matching leads builtIn returned
  exact ⟨_, i, n, g, told, walked, frames, ready, reached⟩

end DeskCalculator.Machine
