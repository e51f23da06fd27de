import DeskCalculator.CommandLine.Program
import DeskCalculator.Proofs.Lifecycle
import DeskCalculator.Proofs.Reports
import Mathlib.Data.List.Forall2

/-!
The command. Either one of its files cannot be read and nothing is run, or its programs are run in
order, each on what the one before has left, up to the first that quits or fails. What it writes is
what these runs have written, and its status tells whether one of them failed.
-/

namespace DeskCalculator

section histories
variable {host : Host} {event : Event} {depth frames : Nat} {handlers : List Handler}
  {before after : History} {refusal : Option Failure} {failure : Failure}

theorem suffix_called (h : Called event depth frames handlers before refusal after) :
    before <:+ after := by
  induction h with
  | all => exact List.suffix_rfl
  | agrees _ _ ih => exact (List.suffix_cons _ _).trans ih
  | refuses => exact List.suffix_cons _ _

theorem suffix_told (h : Told host event depth frames before refusal after) : before <:+ after :=
  (List.suffix_cons _ _).trans (suffix_called h)

theorem suffix_works (h : Works host before after) : before <:+ after := by
  induction h with
  | nothing => exact List.suffix_rfl
  | wrote _ _ ih => exact ih.trans (List.suffix_cons _ _)
  | ran _ told _ ih => exact (ih.trans (suffix_told told)).trans (List.suffix_cons _ _)

theorem suffix_breaks (h : Breaks host before failure after) : before <:+ after := by
  cases h with
  | idle works => exact suffix_works works
  | untold works told => exact (suffix_works works).trans (suffix_told told)
  | refused works told _ =>
    exact ((suffix_works works).trans (suffix_told told)).trans (List.suffix_cons _ _)

/-- Where no handler is registered nobody can refuse to be told. -/
theorem unrefused_of_told (h : Told host event depth frames before refusal after)
    (nobody : host.hooks.handlers event.occasion = []) : refusal = none := by
  unfold Told at h
  rw [nobody] at h
  cases h
  rfl

end histories

namespace Machine

variable {host : Host} {calling : Calling} {limit : Nat} {name source : Text} {start m : Machine}
  {result : Except RunFailure Signal} {r : EStateM.Result Failure Machine (Option Signal)}

theorem suffix_emit (host : Host) (event : Event) (m : Machine) :
    m.history <:+ (leftState (emit host event m)).history := by
  obtain ⟨refusal, after, told, emitted⟩ := told_emit host event m
  rw [emitted]
  cases refusal <;> exact suffix_told told

theorem suffix_conclude (host : Host) (event : Event) (result : Except RunFailure Signal)
    (m : Machine) : m.history <:+ (conclude host event result m).2.history := by
  obtain ⟨refusal, after, told, concluded⟩ := told_conclude host event result m
  rw [concluded]
  exact suffix_told told

theorem suffix_steps (host : Host) (calling : Calling) (limit : Nat) (m : Machine) :
    m.history <:+ (leftState (steps host calling limit m)).history := by
  have evaluation := breakable_steps host calling m.history limit m .nothing
  cases ended : steps host calling limit m with
  | ok signal m₁ =>
    rw [ended] at evaluation
    exact suffix_works evaluation
  | error failure m₁ =>
    rw [ended] at evaluation
    exact suffix_breaks evaluation

theorem suffix_verdict (concluded : verdict host r = some (result, m)) :
    (leftState r).history <:+ m.history := by
  obtain ⟨event, result', frames, ended, -⟩ := concluded_of_verdict concluded
  have more := suffix_conclude host event result' { leftState r with frames }
  rw [ended] at more
  exact more

/-- A run only adds to the history. -/
theorem suffix_run (ran : run host calling limit name source start = some (result, m)) :
    start.history <:+ m.history := by
  have begun := suffix_emit host (.programStart source) start.cleared
  cases told : emit host (.programStart source) start.cleared with
  | error failure m₁ =>
    rw [run_of_refused told] at ran
    rw [told] at begun
    cases ran
    exact begun
  | ok _ m₁ =>
    rw [run_of_told told] at ran
    rw [told] at begun
    have during := suffix_steps host calling limit { m₁ with frames := [Frame.ofText name source] }
    exact (begun.trans during).trans (suffix_verdict ran)

/-- Only a handler can make a run fail with anything but a traceback. -/
theorem fault_of_run (ran : run host calling limit name source start = some (result, m))
    (nobody : ∀ occasion, host.hooks.handlers occasion = []) (b : Breakdown) :
    result ≠ .error (.breakdown b) := by
  obtain ⟨refusal, begun, told, emitted⟩ := told_emit host (.programStart source) start.cleared
  obtain rfl := unrefused_of_told told (nobody _)
  rw [run_of_told emitted] at ran
  obtain ⟨event, result', frames, ended, unbroken⟩ := concluded_of_verdict ran
  obtain ⟨refusal, after, told', concluded⟩ := told_conclude host event result' _
  obtain rfl := unrefused_of_told told' (nobody _)
  cases concluded.symm.trans ended
  exact unbroken b

end Machine

namespace CommandLine

section results
variable {ε α β : Type} {f : α → Except ε β}

/-- Either everything in a list has a result, or the list fails as something in it does. -/
theorem mapM_cases (l : List α) :
    (∃ bs, l.mapM f = .ok bs ∧ List.Forall₂ (fun a b => f a = .ok b) l bs) ∨
      ∃ a ∈ l, ∃ e, f a = .error e ∧ l.mapM f = .error e := by
  induction l with
  | nil => exact .inl ⟨[], rfl, .nil⟩
  | cons a l ih =>
    rw [List.mapM_cons]
    cases first : f a with
    | error e => exact .inr ⟨a, List.mem_cons_self, e, first, rfl⟩
    | ok b =>
      obtain ⟨bs, rest, each⟩ | ⟨a', mem, e, refused, rest⟩ := ih
      · exact .inl ⟨b :: bs, by rw [rest]; rfl, .cons first each⟩
      · exact .inr ⟨a', List.mem_cons_of_mem _ mem, e, refused, by rw [rest]; rfl⟩

end results

theorem written_append (later earlier : History) :
    written (later ++ earlier) = written earlier ++ written later := by
  simp only [written, List.reverse_append, List.flatMap_append]

/-- The run of a source: where it starts, what it comes to, what it leaves and what it does. -/
structure Execution (host : Host) (limit : Nat) where
  source : Source
  before : Session
  result : Except RunFailure Signal
  after : Session
  effects : History
  ran : before.run host limit source.name source.text = some (result, after)
  adds : after.machine.history = effects ++ before.machine.history

variable {host : Host} {limit : Nat}

namespace Execution

def output (e : Execution host limit) : Text := written e.effects

/-- The run has come to the end of its text. -/
def Passed (e : Execution host limit) : Prop := e.result = .ok .okay

def Raised (e : Execution host limit) : Prop := ∃ failure, e.result = .error failure

/-- If the run has raised a fault, there are the reports of it that are asked for. -/
def Reportable (options : Options) (e : Execution host limit) : Prop :=
  ∀ t, e.result = .error (.fault t) →
    (∃ report, Report.text t e.after.machine.store options.verbose = .ok report) ∧
      (options.json → ∃ document, Report.json t e.after.machine.store = .ok document)

theorem not_raised_of_passed {e : Execution host limit} (passed : e.Passed) : ¬ e.Raised := by
  rintro ⟨failure, raised⟩
  cases passed.symm.trans raised

theorem exists_of_run {s s' : Session} {source : Source} {result : Except RunFailure Signal}
    (ran : s.run host limit source.name source.text = some (result, s')) :
    ∃ e : Execution host limit,
      e.source = source ∧ e.before = s ∧ e.result = result ∧ e.after = s' := by
  obtain ⟨effects, adds⟩ := Machine.suffix_run (Session.machine_of_run ran)
  exact ⟨⟨source, s, result, s', effects, ran, adds.symm⟩, rfl, rfl, rfl, rfl⟩

/-- No run of the command fails with anything but a traceback, since it has no handlers. -/
theorem fault_of_raised {surroundings : Surroundings} {e : Execution (CommandLine.host surroundings)
    limit} {failure : RunFailure} (raised : e.result = .error failure) :
    ∃ t, failure = .fault t := by
  cases failure with
  | fault t => exact ⟨t, rfl⟩
  | breakdown b =>
    exact absurd raised (Machine.fault_of_run (Session.machine_of_run e.ran) (fun _ => rfl) b)

end Execution

/-- Runs one after another, each from the session that the one before has left. -/
inductive Linked : Session → List (Execution host limit) → Session → Prop where
  | none {s : Session} : Linked s [] s
  | next {e : Execution host limit} {later : List (Execution host limit)} {s : Session}
      (rest : Linked e.after later s) : Linked e.before (e :: later) s

theorem Linked.written {s s' : Session} {executed : List (Execution host limit)}
    (h : Linked s executed s') :
    written s'.machine.history =
      CommandLine.written s.machine.history ++ executed.flatMap Execution.output := by
  induction h with
  | none => exact (List.append_nil _).symm
  | @next e later s _ ih =>
    rw [ih, e.adds, written_append, List.flatMap_cons, List.append_assoc]
    rfl

/-- How sources are run: `executed` are the runs there have been, and there is no result when the
next one does not end within the limit. -/
inductive Driven : Session → List Source → List (Execution host limit) → Session →
    Option (Except RunFailure Signal) → Prop where
  | done {s : Session} : Driven s [] [] s (some (.ok .okay))
  | unending {s : Session} {source : Source} {rest : List Source}
      (endless : s.run host limit source.name source.text = none) :
      Driven s (source :: rest) [] s none
  | stops {e : Execution host limit} {rest : List Source} (stopped : ¬ e.Passed) :
      Driven e.before (e.source :: rest) [e] e.after (some e.result)
  | passes {e : Execution host limit} {rest : List Source} {later : List (Execution host limit)}
      {s : Session} {result : Option (Except RunFailure Signal)} (passed : e.Passed)
      (others : Driven e.after rest later s result) :
      Driven e.before (e.source :: rest) (e :: later) s result

theorem driven_runSources (s : Session) (sources : List Source) :
    ∃ (executed : List (Execution host limit)) (final : Session)
      (result : Option (Except RunFailure Signal)),
      Driven s sources executed final result ∧
        runSources host limit s sources = result.map (·, final) := by
  induction sources generalizing s with
  | nil => exact ⟨[], s, _, .done, rfl⟩
  | cons source rest ih =>
    cases ran : s.run host limit source.name source.text with
    | none =>
      refine ⟨[], s, none, .unending ran, ?_⟩
      simp only [runSources, ran, Option.map_none]
    | some ended =>
      obtain ⟨result, s'⟩ := ended
      obtain ⟨e, rfl, rfl, rfl, rfl⟩ := Execution.exists_of_run ran
      by_cases passed : e.Passed
      · obtain ⟨later, final, result, others, gone⟩ := ih e.after
        refine ⟨e :: later, final, result, .passes passed others, ?_⟩
        rw [passed] at ran
        simp only [runSources, ran, gone]
      · refine ⟨[e], e.after, some e.result, .stops passed, ?_⟩
        simp only [runSources, ran, Option.map_some]
        split
        · rename_i same
          exact absurd (congrArg Prod.fst (Option.some.inj same)) passed
        · rfl

namespace Driven

variable {s final : Session} {sources : List Source} {executed : List (Execution host limit)}
  {ended : Option (Except RunFailure Signal)} {result : Except RunFailure Signal}

theorem linked (h : Driven s sources executed final ended) : Linked s executed final := by
  induction h with
  | done | unending => exact .none
  | stops => exact .next .none
  | passes _ _ ih => exact .next ih

theorem inOrder (h : Driven s sources executed final ended) :
    executed.map (·.source) <+: sources := by
  induction h with
  | done | unending => exact List.nil_prefix
  | stops => exact List.prefix_append [_] _
  | passes _ _ ih => exact (List.prefix_cons_inj _).mpr ih

theorem passed (h : Driven s sources executed final ended) : ∀ e ∈ executed.dropLast, e.Passed := by
  induction h with
  | done | unending | stops => exact List.forall_mem_nil _
  | @passes e rest later s result passed others ih =>
    cases later with
    | nil => exact List.forall_mem_nil _
    | cons e' later => exact List.forall_mem_cons.mpr ⟨passed, ih⟩

theorem endless (h : Driven s sources executed final none) :
    (∀ e ∈ executed, e.Passed) ∧
      ∃ source rest, sources = executed.map (·.source) ++ source :: rest ∧
        final.run host limit source.name source.text = none := by
  generalize none_eq : (none : Option (Except RunFailure Signal)) = ended at h
  induction h with
  | done | stops => cases none_eq
  | unending endless => exact ⟨List.forall_mem_nil _, _, _, rfl, endless⟩
  | passes passed _ ih =>
    obtain ⟨others, source, rest, rfl, endless⟩ := ih none_eq
    exact ⟨List.forall_mem_cons.mpr ⟨passed, others⟩, source, rest, rfl, endless⟩

theorem through (h : Driven s sources executed final (some result))
    (all : ∀ e ∈ executed, e.Passed) : executed.map (·.source) = sources := by
  generalize some_eq : some result = ended at h
  induction h with
  | done => rfl
  | unending => cases some_eq
  | stops stopped => exact absurd (all _ List.mem_cons_self) stopped
  | passes _ _ ih =>
    exact congrArg _ (ih (fun e mem => all e (List.mem_cons_of_mem _ mem)) some_eq)

/-- The result is a failure if and only if one of the runs has failed, and then it is the last. -/
theorem raised (h : Driven s sources executed final (some result)) :
    (∀ failure, result = .error failure →
      ∃ e ∈ executed, e.result = .error failure ∧ e.after = final) ∧
      (∀ signal, result = .ok signal → ∀ e ∈ executed, ¬ e.Raised) := by
  generalize some_eq : some result = ended at h
  induction h with
  | done =>
    cases some_eq
    exact ⟨nofun, fun _ _ => List.forall_mem_nil _⟩
  | unending => cases some_eq
  | @stops e rest _ =>
    cases some_eq
    refine ⟨fun failure raised => ⟨e, List.mem_cons_self, raised, rfl⟩, ?_⟩
    rintro signal ended e' mem ⟨failure, raised⟩
    obtain rfl := List.mem_singleton.mp mem
    cases ended.symm.trans raised
  | passes passed _ ih =>
    obtain ⟨failed, ended⟩ := ih some_eq
    constructor
    · intro failure raised
      obtain ⟨e, mem, last⟩ := failed failure raised
      exact ⟨e, List.mem_cons_of_mem _ mem, last⟩
    · intro signal returned
      exact List.forall_mem_cons.mpr
        ⟨Execution.not_raised_of_passed passed, ended signal returned⟩

end Driven

/-- The programs of a command: the expressions and then the files, or the standard input alone when
there are neither. -/
inductive Programs (surroundings : Surroundings) (options : Options) : List Source → Prop where
  | given {files : List Source} (some : options.expressions ≠ [] ∨ options.files ≠ [])
      (read : List.Forall₂ (fun name file => fileSource surroundings name = .ok file)
        options.files files) :
      Programs surroundings options
        (options.expressions.map (⟨Text.ofString "<expression>", ·⟩) ++ files)
  | input {source : Source} (noExpression : options.expressions = []) (noFile : options.files = [])
      (read : decodeSource (Text.ofString "<stdin>") surroundings.input = .ok source) :
      Programs surroundings options [source]

/-- A file that the system does not let the command read. -/
def Unreadable (surroundings : Surroundings) (name : Text) : Prop :=
  ∃ fault, fileSource surroundings name = .error (.unreadable name fault)

/-- What the command delivers after its runs. -/
structure Delivers (options : Options) (all : List Source) (executed : List (Execution host limit))
    (outcome : Outcome) : Prop where
  through : (∀ e ∈ executed, e.Passed) → executed.map (·.source) = all
  output : outcome.output = executed.flatMap Execution.output
  status : (∀ e ∈ executed, e.Reportable options) →
    (outcome.ending = .exit 1 ↔ ∃ e ∈ executed, e.Raised)
  silent : (∀ e ∈ executed, ¬ e.Raised) → outcome.ending = .exit 0 ∧ outcome.errors = []

section command
variable {surroundings : Surroundings} {options : Options} {arguments : List Text}

theorem sources_of_unreadable
    (files : ∀ name ∈ options.files,
      (∃ file, fileSource surroundings name = .ok file) ∨ Unreadable surroundings name)
    (some : ∃ name ∈ options.files, Unreadable surroundings name) :
    ∃ name fault, sources surroundings options = .error (.unreadable name fault) := by
  obtain ⟨_, all, -⟩ | ⟨name, mem, e, refused, failed⟩ :=
    mapM_cases (f := fileSource surroundings) options.files
  · obtain ⟨name, mem, fault, unreadable⟩ := some
    obtain ⟨file, read⟩ := mapM_ok_iff.mp ⟨_, all⟩ name mem
    cases read.symm.trans unreadable
  · obtain ⟨file, read⟩ | ⟨fault, unreadable⟩ := files name mem
    · cases read.symm.trans refused
    · cases unreadable.symm.trans refused
      refine ⟨name, fault, ?_⟩
      unfold sources
      rw [failed]
      rfl

theorem sources_of_readable
    (files : ∀ name ∈ options.files, ∃ file, fileSource surroundings name = .ok file)
    (input : options.expressions = [] → options.files = [] →
      ∃ source, decodeSource (Text.ofString "<stdin>") surroundings.input = .ok source) :
    ∃ all, Programs surroundings options all ∧ sources surroundings options = .ok all := by
  obtain ⟨read, all, each⟩ | ⟨name, mem, e, refused, -⟩ :=
    mapM_cases (f := fileSource surroundings) options.files
  · by_cases none : options.expressions = [] ∧ options.files = []
    · obtain ⟨noExpression, noFile⟩ := none
      obtain ⟨source, decoded⟩ := input noExpression noFile
      refine ⟨[source], .input noExpression noFile decoded, ?_⟩
      simp only [sources, noExpression, noFile, List.mapM_nil, decoded]
      rfl
    · refine ⟨_, .given (not_and_or.mp none) each, ?_⟩
      have some : options.expressions.map (⟨Text.ofString "<expression>", ·⟩) ++ read ≠ [] := by
        intro empty
        obtain ⟨noExpression, rfl⟩ := List.append_eq_nil_iff.mp empty
        exact none ⟨List.map_eq_nil_iff.mp noExpression, List.forall₂_nil_right_iff.mp each⟩
      obtain ⟨first, rest, cons⟩ := List.exists_cons_of_ne_nil some
      rw [cons]
      simp only [sources, all]
      dsimp only [bind, Except.bind]
      rw [cons]
      rfl
  · obtain ⟨file, found⟩ := files name mem
    cases found.symm.trans refused

theorem report_exits {t : Traceback} {store : Store}
    (text : ∃ report, Report.text t store options.verbose = .ok report)
    (json : options.json → ∃ document, Report.json t store = .ok document) :
    (report options t store).1 = .exit 1 := by
  obtain ⟨lines, written⟩ := text
  unfold report
  rw [written]
  by_cases asked : options.json = true
  · obtain ⟨document, composed⟩ := json asked
    simp only [asked, composed, if_true]
  · simp only [asked, Bool.false_eq_true, if_false]

/-- What the command makes of the result of its runs and of the session that they have left. -/
def concluded (options : Options) (result : Except RunFailure Signal) (final : Session) : Outcome :=
  let told : Ending × Text :=
    match result with
    | .ok _ => (.exit 0, [])
    | .error (.fault t) => report options t final.machine.store
    | .error (.breakdown b) => (.broken b, [])
  { ending := told.1, errors := told.2, output := written final.machine.history,
    commands := commandsRun final.machine.history }

theorem delivers_concluded {all : List Source} {final : Session}
    {executed : List (Execution (CommandLine.host surroundings) limit)}
    {result : Except RunFailure Signal}
    (driven : Driven (Session.start options.verbose) all executed final (some result)) :
    Delivers options all executed (concluded options result final) := by
  obtain ⟨failed, returned⟩ := driven.raised
  refine ⟨driven.through, driven.linked.written, ?_, ?_⟩
  · intro reportable
    cases result with
    | ok signal =>
      constructor
      · exact nofun
      · rintro ⟨e, mem, raised⟩
        exact absurd raised (returned signal rfl e mem)
    | error failure =>
      obtain ⟨e, mem, raised, rfl⟩ := failed failure rfl
      obtain ⟨t, rfl⟩ := Execution.fault_of_raised raised
      obtain ⟨text, json⟩ := reportable e mem t raised
      exact ⟨fun _ => ⟨e, mem, _, raised⟩, fun _ => report_exits text json⟩
  · intro silent
    cases result with
    | ok signal => exact ⟨rfl, rfl⟩
    | error failure =>
      obtain ⟨e, mem, raised, -⟩ := failed failure rfl
      exact absurd ⟨failure, raised⟩ (silent e mem)

/-- When a file cannot be read, the command runs nothing, writes nothing and exits with 1.
Otherwise it runs the expressions and then the files, or else its input, on one machine, each
program on what the one before has left, up to the first that quits or fails. It writes what these
runs have written. If the reports asked for can be given, it exits with 1 if a run has failed, and
else with 0 and without a word. -/
theorem programs_run (given : Options.ofArguments arguments = .ok options)
    (files : ∀ name ∈ options.files,
      (∃ file, fileSource surroundings name = .ok file) ∨ Unreadable surroundings name)
    (input : options.expressions = [] → options.files = [] →
      ∃ source, decodeSource (Text.ofString "<stdin>") surroundings.input = .ok source) :
    ((∃ name ∈ options.files, Unreadable surroundings name) →
      ∃ outcome, (∀ limit, run surroundings limit arguments = some outcome) ∧
        outcome.ending = .exit 1 ∧ outcome.output = [] ∧ outcome.commands = []) ∧
    ((∀ name ∈ options.files, ¬ Unreadable surroundings name) →
      ∃ all, Programs surroundings options all ∧
        ∀ limit, ∃ (executed : List (Execution (CommandLine.host surroundings) limit))
            (final : Session),
          Linked (Session.start options.verbose) executed final ∧
          executed.map (·.source) <+: all ∧
          (∀ e ∈ executed.dropLast, e.Passed) ∧
          (run surroundings limit arguments = none →
            (∀ e ∈ executed, e.Passed) ∧
              ∃ source rest, all = executed.map (·.source) ++ source :: rest ∧
                final.run (CommandLine.host surroundings) limit source.name source.text = none) ∧
          ∀ outcome, run surroundings limit arguments = some outcome →
            Delivers options all executed outcome) := by
  constructor
  · intro some
    obtain ⟨name, fault, refused⟩ := sources_of_unreadable files some
    let outcome : Outcome := {
      ending := .exit 1
      errors := errorLine (Text.ofString "Failed to read " ++ name ++ Text.ofString ": "
        ++ fault.message ++ Text.ofString ": " ++ Text.quoted name) }
    have ended (limit : Nat) : run surroundings limit arguments = Option.some outcome := by
      simp only [run, given, refused, outcome]
    exact ⟨outcome, ended, rfl, rfl, rfl⟩
  · intro none
    obtain ⟨all, programs, found⟩ := sources_of_readable
      (fun name mem => (files name mem).resolve_right (none name mem)) input
    refine ⟨all, programs, fun limit => ?_⟩
    obtain ⟨executed, final, ended, driven, ran⟩ :=
      @driven_runSources (CommandLine.host surroundings) limit (Session.start options.verbose) all
    have outcome : run surroundings limit arguments =
        ended.map fun result => concluded options result final := by
      simp only [run, given, found, execute, ran]
      cases ended <;> rfl
    refine ⟨executed, final, driven.linked, driven.inOrder, driven.passed, ?_, ?_⟩
    · intro unended
      obtain rfl := Option.map_eq_none_iff.mp (outcome.symm.trans unended)
      exact driven.endless
    · intro delivered ended
      obtain ⟨result, rfl, rfl⟩ := Option.map_eq_some_iff.mp (outcome.symm.trans ended)
      exact delivers_concluded driven

/-- The expression `1p!ls`, and then a file with a null character in its command. The shell takes
the first command, but not this one, and so the file fails before it prints. -/
theorem programs_run_failing :
    let surroundings : Surroundings := {
      file := fun _ => .ok [33, 108, 0, 10, 50, 112]
      input := []
      shell := fun _ command =>
        if command.contains (.scalar '\x00') then some (.broken .nullInName) else none }
    let arguments := [Text.ofString "-e", Text.ofString "1p!ls", Text.ofString "f"]
    ∃ (executed : List (Execution (CommandLine.host surroundings) 9)) (outcome : Outcome),
      executed.map (·.source) <+: [⟨Text.ofString "<expression>", Text.ofString "1p!ls"⟩,
        ⟨Text.ofString "f", Text.ofString "!l\x00\n2p"⟩] ∧
      run surroundings 9 arguments = some outcome ∧ outcome.ending = .exit 1 ∧
      outcome.output = Text.ofString "1\n" ∧ outcome.output = executed.flatMap Execution.output ∧
      ∃ e ∈ executed, e.Raised := by
  intro surroundings arguments
  have given : Options.ofArguments arguments =
      .ok { expressions := [Text.ofString "1p!ls"], files := [Text.ofString "f"] } := by
    decide +kernel
  have read : fileSource surroundings (Text.ofString "f") =
      .ok ⟨Text.ofString "f", Text.ofString "!l\x00\n2p"⟩ := by
    decide +kernel
  have readable : ∀ name ∈ [Text.ofString "f"], ∃ file, fileSource surroundings name = .ok file :=
    List.forall_mem_singleton.mpr ⟨_, read⟩
  have ends : (run surroundings 9 arguments).map (fun outcome => (outcome.ending, outcome.output)) =
      some (.exit 1, Text.ofString "1\n") := by
    decide +kernel
  obtain ⟨outcome, ran, left⟩ := Option.map_eq_some_iff.mp ends
  obtain ⟨ending, output⟩ := Prod.mk.inj left
  obtain ⟨-, runs⟩ := programs_run given (fun name mem => .inl (readable name mem)) nofun
  obtain ⟨all, programs, each⟩ := runs fun name mem => by
    rintro ⟨fault, unreadable⟩
    obtain ⟨file, found⟩ := readable name mem
    cases found.symm.trans unreadable
  obtain ⟨executed, final, -, inOrder, -, -, delivers⟩ := each 9
  have delivered := delivers outcome ran
  have raised : ∃ e ∈ executed, e.Raised :=
    (delivered.status fun e _ t _ => ⟨Report.text_short_ok t _, nofun⟩).mp ending
  refine ⟨executed, outcome, ?_, ran, ending, output, delivered.output, raised⟩
  cases programs with
  | given some found =>
    cases found with
    | cons first none =>
      cases none
      cases read.symm.trans first
      exact inOrder
  | input noExpression => cases noExpression

end command

end CommandLine

end DeskCalculator
