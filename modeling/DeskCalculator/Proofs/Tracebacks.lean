import DeskCalculator.Proofs.Location
import DeskCalculator.Proofs.Machine.Quit
import DeskCalculator.Proofs.Machine.Waiting

/-!
The traceback of a run that fails. Its places are those of the frames: the innermost one at the
instruction that has failed, and every other one at the call that it waits for. Its step is told by
the instructions that have been logged. Its instruction is the one that has failed, unless the
machine underneath broke down before this one was logged.
-/

namespace DeskCalculator

/-- How many further texts the frame at a height has taken, by the calls in progress. The first text
of a frame was a call as well, but for the program. -/
def tailCalls (calls : List Nat) (height : Nat) : Nat :=
  calls.count height - if height = 1 then 0 else 1

/-- A place shows where in its text a frame stands, and how many tail calls it has made. -/
structure Place.Shows (p : Place) (text : Text) (index tailCalls : Nat) : Prop where
  stands : text.Stands index p.line p.column p.statement
  depth : p.tailDepth = 1 + tailCalls

theorem Disciplined.tailDepth {name : Text} {calls : List Nat} {inner below : List Frame}
    {f : Frame} (h : Disciplined name calls (inner ++ f :: below)) :
    f.tailDepth = 1 + tailCalls calls (below.length + 1) := by
  have deep := h.deep f (by simp)
  obtain ⟨counted, -⟩ := h.accounted.of_append
  unfold tailCalls
  cases below with
  | nil => simpa [Nat.add_comm] using counted
  | cons caller below =>
    simp only [List.isEmpty_cons, List.length_cons, Bool.false_eq_true, if_false] at counted ⊢
    rw [if_neg (by omega)]
    omega

theorem Frame.shows_place {f : Frame} {n : Nat} (inside : f.position ≤ f.cursor.text.length)
    (deep : f.tailDepth = 1 + n) : f.place.Shows f.cursor.text f.position n :=
  ⟨Text.stands_location inside, deep⟩

namespace Machine

variable {host : Host} {calling : Calling} {limit : Nat} {name source : Text}
  {start m m' : Machine} {calls : List Nat} {failure : Failure}

theorem getElem?_places {inner below : List Frame} {f : Frame}
    (frames : m.frames = inner ++ f :: below) :
    (m.traceback failure).places[below.length]? = some f.place := by
  simp [traceback, frames]

theorem names_places (h : Disciplined name calls m.frames) :
    (m.traceback failure).places.map (·.name) =
      name :: List.replicate (m.frames.length - 1) Frame.macroName := by
  calc
    (m.traceback failure).places.map (·.name) = (m.frames.map (·.name)).reverse := by
      simp [traceback, Function.comp_def, Frame.place]
    _ = name :: List.replicate (m.frames.length - 1) Frame.macroName := by
      rw [h.names]
      simp

/-- The instructions that some steps execute, as far as they do not fail. -/
def executed (host : Host) (calling : Calling) : Nat → Machine → List CodePoint
  | 0, _ => []
  | limit + 1, m =>
    match step host calling m with
    | .ok none m' => m.pending?.toList ++ executed host calling limit m'
    | _ => []

/-- A step logs the instruction that it executes. -/
theorem journal_step {signal : Option Signal} (stepped : step host calling m = .ok signal m') :
    m'.journal.next = m.journal.next + m.pending?.toList.length ∧
      m'.journal.last = (m.pending?.map ([·])).or m.journal.last := by
  cases frames : m.frames with
  | nil =>
    have none : m.pending? = none := by simp [pending?, frames]
    simp only [step, frames] at stepped
    cases stepped
    simp [none]
  | cons frame callers =>
    rw [pending?_of_frames frames]
    cases pending : frame.cursor.peek? with
    | none =>
      rw [step_of_end frames pending] at stepped
      cases stepped
      exact ⟨rfl, rfl⟩
    | some ch =>
      rw [step_of_pending frames pending] at stepped
      obtain ⟨move, m₁, executed, followed⟩ := bind_eq_ok.mp stepped
      obtain ⟨⟨⟩, m₂, entered, rest⟩ := bind_eq_ok.mp executed
      cases entered
      obtain ⟨action, m₃, performed, rest⟩ := bind_eq_ok.mp rest
      obtain ⟨⟨⟩, m₄, recorded, acted⟩ := bind_eq_ok.mp rest
      have logged := journal_recorded performed recorded
      have acts := (keeps_journal_act _ _ _).of_ok acted
      have follows : Keeps Machine.journal
          (follow calling (frame.begin (frame.cursor.advance 1)) callers move) :=
        keeps_follow (fun _ _ => rfl) (fun _ _ => rfl) _ _ _
      rw [follows.of_ok followed, acts]
      exact logged

/-- What is logged last is the last of what came later, if anything did. -/
theorem last_append (first : Option CodePoint) (log : List CodePoint) (before : Option Text) :
    ((first.toList ++ log).getLast?.map ([·])).or before =
      (log.getLast?.map ([·])).or ((first.map ([·])).or before) := by
  rw [List.getLast?_append]
  cases log.getLast? with
  | none => cases first <;> rfl
  | some ch => rfl

/-- What steps execute is logged, and nothing else is. -/
theorem journal_steps (reached : steps host calling limit m = .ok none m') :
    m'.journal.next = m.journal.next + (executed host calling limit m).length ∧
      m'.journal.last =
        ((executed host calling limit m).getLast?.map ([·])).or m.journal.last := by
  induction limit generalizing m with
  | zero =>
    cases reached
    exact ⟨rfl, rfl⟩
  | succ limit ih =>
    cases stepped : step host calling m with
    | error failure m₁ => simp [steps, stepped] at reached
    | ok signal m₁ =>
      cases signal with
      | some signal => simp [steps, stepped] at reached
      | none =>
        rw [steps_succ stepped] at reached
        obtain ⟨counted, last⟩ := ih reached
        obtain ⟨counted₁, last₁⟩ := journal_step stepped
        simp only [executed, stepped]
        constructor
        · rw [counted, counted₁, List.length_append]
          omega
        · rw [last, last₁, last_append]

/-- What the traceback `t` tells of a failure in `m`, by the instruction `ch` of the innermost frame.
The run has logged the instructions `log` before it, and `logged` tells whether it has logged this one
too. What is `raised` at the `stage` of its work, or without an instruction, is told with this
instruction; only what the host has raised with another one is told with that. -/
structure Traced (host : Host) (name source : Text) (start m : Machine) (calls : List Nat)
    (frame : Frame) (callers : List Frame) (ch : CodePoint) (raised : Failure) (stage : Stage)
    (log : List CodePoint) (logged : Bool) (t : Traceback) : Prop where
  names : t.places.map (·.name) = name :: List.replicate callers.length Frame.macroName
  failing : ∃ p, t.places[callers.length]? = some p ∧
    p.Shows frame.cursor.text frame.cursor.index (tailCalls calls (callers.length + 1))
  waiting : ∀ inner f below, callers = inner ++ f :: below →
    Awaits host name source start f below m ∧
      ∃ p, t.places[below.length]? = some p ∧
        p.Shows f.cursor.text f.position (tailCalls calls (below.length + 1))
  step : let n := start.journal.next + log.length + logged.toNat
    t.step = if n = 0 then none else some (n - 1)
  ascribed : ∀ f, raised = .fault f → stage = .working ∨ f.instruction = none →
    t.fault.instruction = some [ch]
  named : ∀ f instruction, raised = .fault f → f.instruction = some instruction →
    t.fault.instruction = some instruction
  breakdown : ∀ b, raised = .breakdown b → t.fault.instruction =
    if logged then some [ch] else (log.getLast?.map ([·])).or start.journal.last

section failing
variable {frame : Frame} {callers : List Frame} {ch : CodePoint} {raised : Failure} {stage : Stage}
  {log : List CodePoint} {logged : Bool}

/-- A frame that waits stands at its call. -/
theorem Awaits.index_le {f : Frame} {below : List Frame}
    (h : Awaits host name source start f below m) : f.position ≤ f.cursor.text.length := by
  obtain ⟨-, -, inText, standing, pending, -, -, -, -⟩ := h
  rw [inText, standing]
  exact Cursor.index_le_of_peek? pending

/-- The step of a traceback counts what has been logged. -/
theorem lastStep?_failing
    (failing : Failing host m frame callers ch raised m' stage failure logged)
    (counted : m.journal.next = start.journal.next + log.length) :
    let n := start.journal.next + log.length + logged.toNat
    m'.journal.lastStep? = if n = 0 then none else some (n - 1) := by
  have journal := failing.journal
  cases logged with
  | true => simp [Journal.lastStep?, journal.1, counted]
  | false =>
    have same : m'.journal = m.journal := journal
    simp [Journal.lastStep?, same, counted]

theorem traced_of_fails (builtIn : start.overrides = {})
    (underway : Underway host .flat name source start m calls)
    (failed : Machine.step host .flat m = .error failure m')
    (counted : m.journal.next = start.journal.next + log.length)
    (last : m.journal.last = (log.getLast?.map ([·])).or start.journal.last) :
    ∃ frame callers ch raised stage logged,
      m.frames = frame :: callers ∧ frame.cursor.peek? = some ch ∧
      Failing host m frame callers ch raised m' stage failure logged ∧
      Traced host name source start m calls frame callers ch raised stage log logged
        (m'.traceback failure) := by
  obtain ⟨frame, callers, ch, cursor, frames, pending, broke, inText, left⟩ := step_fails failed
  obtain ⟨raised, stage, logged, failing⟩ := failing_of_execute broke
  have builtIn' := underway.overrides.trans builtIn
  have disciplined := failed_disciplined underway failed
  refine ⟨frame, callers, ch, raised, stage, logged, frames, pending, failing, ?_⟩
  exact {
    names := by
      rw [names_places disciplined, left]
      rfl
    failing := by
      have innermost : m'.frames = [] ++ _ :: callers := left
      have deep := Disciplined.tailDepth (innermost ▸ disciplined)
      refine ⟨_, getElem?_places innermost, ?_⟩
      rw [← inText]
      refine Frame.shows_place ?_ deep
      change frame.cursor.index ≤ cursor.text.length
      rw [inText]
      exact Cursor.index_le_of_peek? pending
    waiting := by
      intro inner f below split
      have waits := underway_awaits builtIn underway f below
        (by rw [frames, split]; exact List.suffix_append _ _)
      rw [split, ← List.cons_append] at left
      exact ⟨waits, _, getElem?_places left,
        Frame.shows_place waits.index_le (Disciplined.tailDepth (left ▸ disciplined))⟩
    step := lastStep?_failing failing counted
    ascribed := by
      rintro f rfl own
      exact failing.ascribed builtIn' own
    named := by
      rintro f instruction rfl named
      exact failing.named named
    breakdown := by
      rintro b rfl
      rw [failing.breakdown, last] }

end failing

/-- When the evaluation of a program fails, its run raises a traceback, which tells of each frame
where it stands and of the instruction that has failed. A fault at another stage than its work is one
that the host has refused something with. -/
theorem traceback_locates {m₀ : Machine} (builtIn : start.overrides = {})
    (told : emit host (.programStart source) start.cleared = .ok () m₀)
    (failed : steps host .flat limit { m₀ with frames := [Frame.ofText name source] } =
      .error failure m') :
    run host .flat limit name source start =
      some (conclude host (.onError (m'.traceback failure).fault)
        (.error (.fault (m'.traceback failure))) { m' with frames := [] }) ∧
    ∃ k m calls frame callers ch raised stage logged,
      steps host .flat k { m₀ with frames := [Frame.ofText name source] } = .ok none m ∧
      Underway host .flat name source start m calls ∧
      m.frames = frame :: callers ∧ frame.cursor.peek? = some ch ∧
      Failing host m frame callers ch raised m' stage failure logged ∧
      (stage = .handing → ∀ f, raised = .fault f → host.Refuses m'.history raised) ∧
      Traced host name source start m calls frame callers ch raised stage
        (executed host .flat k { m₀ with frames := [Frame.ofText name source] }) logged
        (m'.traceback failure) := by
  refine ⟨by rw [run_of_told told, failed]; rfl, ?_⟩
  obtain ⟨k, m, calls, reached, underway, broke⟩ := (Underway.begin told).last failed rfl
  have tells : Keeps Machine.journal (emit host (.programStart source)) :=
    keeps_emit (fun _ _ => rfl) host _
  have kept := tells.of_ok told
  change m₀.journal = start.journal at kept
  obtain ⟨counted, last⟩ := journal_steps reached
  refine ⟨k, m, calls, ?_⟩
  generalize executed host .flat k { m₀ with frames := [Frame.ofText name source] } = log
    at counted last ⊢
  rw [kept] at counted last
  obtain ⟨frame, callers, ch, raised, stage, logged, frames, pending, failing, traced⟩ :=
    traced_of_fails builtIn underway broke counted last
  refine ⟨frame, callers, ch, raised, stage, logged, reached, underway, frames, pending, failing,
    ?_, traced⟩
  rintro handed f rfl
  exact failing.refused handed

/-- The division of `[2[1 0/]x]x 3` fails in the second text of its macro, and it is told so even
where the host would refuse a command in the name of another instruction. -/
theorem traceback_locates_division :
    let main := Text.ofString "main"
    let source := Text.ofString "[2[1 0/]x]x 3"
    let refusal : Fault := ⟨.external .runtime (Text.ofString "no"), some (Text.ofString "Q")⟩
    let host : Host := { run := fun _ _ => some (.fault refusal) }
    let t : Traceback := {
      fault := ⟨.divisionByZero, some (Text.ofString "/")⟩
      step := some 7
      places := [⟨main, 1, 11, 1, source⟩, ⟨Frame.macroName, 1, 4, 2, Text.ofString "1 0/"⟩] }
    ∃ m m' calls frame callers f stage log logged,
      run host .flat 20 main source {} = some (.error (.fault t), m') ∧
      Traced host main source {} m calls frame callers (.scalar '/') (.fault f) stage log logged t
      := by
  intro main source refusal host t
  have raises : (run host .flat 20 main source {}).bind (fun r => raised? r.1) = some t := by
    decide +kernel
  obtain ⟨⟨result, m'⟩, ran, raised⟩ := Option.bind_eq_some_iff.mp raises
  obtain rfl := eq_of_raised raised
  obtain ⟨m₀, told⟩ :
      ∃ m₀, emit host (.programStart source) ({} : Machine).cleared = .ok () m₀ :=
    ⟨_, rfl⟩
  have ended := ran
  rw [run_of_told told] at ended
  cases failed : steps host .flat 20 { m₀ with frames := [Frame.ofText main source] } with
  | ok signal m₁ =>
    rw [failed] at ended
    cases signal <;> cases ended
  | error failure m₁ =>
    obtain ⟨concluded, k, m, calls, frame, callers, ch, raised, stage, logged, -, -, -, -, failing,
      refused, traced⟩ := traceback_locates rfl told failed
    obtain ⟨same, -⟩ := Prod.mk.inj (Option.some.inj (concluded.symm.trans ran))
    have same : m₁.traceback failure = t := RunFailure.fault.inj (Except.error.inj same)
    rw [same] at traced
    cases raised with
    | breakdown b =>
      obtain rfl : failure = .breakdown b := by cases failing <;> rfl
      have cause := congrArg (fun t : Traceback => t.fault.cause) same
      cases cause
    | fault f =>
      have works : stage = .working := by
        cases stage with
        | working => rfl
        | handing =>
          obtain refused | ⟨none, -⟩ | refused := refused rfl f rfl
          · cases refused
          · cases none
          · cases refused
            cases traced.named _ _ rfl rfl
      have instruction : some [.scalar '/'] = some [ch] := traced.ascribed f rfl (.inl works)
      obtain rfl := List.singleton_inj.mp (Option.some.inj instruction)
      exact ⟨m, m', calls, frame, callers, f, stage, _, logged, ran, traced⟩

/-- The command of `1!ls` is logged and then refused in the name of `Q`, so the traceback tells of
the place of the one and names the other. And when a handler refuses to be told that the division of
`1 0/` has failed, the run raises the refusal instead of the traceback, and it tells of no place. -/
theorem traceback_misnamed :
    let main := Text.ofString "main"
    (let source := Text.ofString "1!ls"
      let refusal : Fault := ⟨.external .runtime (Text.ofString "no"), some (Text.ofString "Q")⟩
      let host : Host := { run := fun _ _ => some (.fault refusal) }
      let t : Traceback := {
        fault := refusal
        step := some 1
        places := [⟨main, 1, 2, 1, source⟩] }
      ∃ m', run host .flat 9 main source {} = some (.error (.fault t), m') ∧
        m'.journal.last = some (Text.ofString "!") ∧ source[1]? = some (.scalar '!') ∧
        t.fault.instruction ≠ some (Text.ofString "!")) ∧
    let source := Text.ofString "1 0/"
    let refusal : Fault := ⟨.external .runtime (Text.ofString "no"), none⟩
    let handler : Handler := ⟨Text.ofString "h", fun _ => some (.fault refusal)⟩
    let host : Host := { hooks := ⟨[⟨.onError, 0, handler⟩]⟩ }
    (∃ failure m, stepsOf host .flat main source {} 9 = .error failure m ∧
      (m.traceback failure).places = [⟨main, 1, 4, 1, source⟩]) ∧
      ∃ m', run host .flat 9 main source {} = some (.error (.fault { fault := refusal }), m') := by
  intro main
  constructor
  · intro source refusal host t
    have raises : (run host .flat 9 main source {}).bind (fun r =>
        (raised? r.1).map fun t => (t, r.2.journal.last)) = some (t, some (Text.ofString "!")) := by
      decide +kernel
    obtain ⟨⟨result, m'⟩, ran, told⟩ := Option.bind_eq_some_iff.mp raises
    obtain ⟨t', raised, same⟩ := Option.map_eq_some_iff.mp told
    obtain ⟨rfl, logged⟩ := Prod.mk.inj same
    obtain rfl := eq_of_raised raised
    exact ⟨m', ran, logged, rfl, by decide⟩
  · intro source refusal handler host
    have fails : (match stepsOf host .flat main source {} 9 with
        | .ok _ _ => none
        | .error failure m => some (m.traceback failure).places) =
          some [⟨main, 1, 4, 1, source⟩] := by
      decide +kernel
    have raises : (run host .flat 9 main source {}).bind (fun r => raised? r.1) =
        some { fault := refusal } := by
      decide +kernel
    obtain ⟨⟨result, m'⟩, ran, raised⟩ := Option.bind_eq_some_iff.mp raises
    obtain rfl := eq_of_raised raised
    refine ⟨?_, m', ran⟩
    cases failed : stepsOf host .flat main source {} 9 with
    | ok signal m => simp [failed] at fails
    | error failure m =>
      rw [failed] at fails
      exact ⟨failure, m, rfl, Option.some.inj fails⟩

end Machine

end DeskCalculator
