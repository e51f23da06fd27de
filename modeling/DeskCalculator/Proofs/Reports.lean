import DeskCalculator.Proofs.Positional
import DeskCalculator.Proofs.Validity

/-!
When there is a report of a failed run. A short report can always be given. One that shows the stack
needs every value on it to be printed in the output base that the run has left, and that an integer
cannot be when the digits of that base are too long to be written in decimal.
-/

namespace DeskCalculator

section results
variable {ε α β : Type} {f : α → Except ε β} {x : Except ε α}

theorem bind_ok_iff : (∃ b, (x >>= f) = .ok b) ↔ ∃ a, x = .ok a ∧ ∃ b, f a = .ok b := by
  cases x <;> simp [bind, Except.bind]

theorem map_ok_iff {g : α → β} : (∃ b, g <$> x = .ok b) ↔ ∃ a, x = .ok a := by
  rw [map_eq_pure_bind, bind_ok_iff]
  exact exists_congr fun a => and_iff_left ⟨g a, rfl⟩

theorem mapM_ok_iff {l : List α} : (∃ bs, l.mapM f = .ok bs) ↔ ∀ a ∈ l, ∃ b, f a = .ok b := by
  induction l with
  | nil => exact ⟨fun _ _ mem => absurd mem List.not_mem_nil, fun _ => ⟨[], rfl⟩⟩
  | cons a l ih =>
    rw [List.mapM_cons, List.forall_mem_cons, ← ih, bind_ok_iff]
    constructor
    · rintro ⟨b, first, rest⟩
      obtain ⟨bs, others, -⟩ := bind_ok_iff.mp rest
      exact ⟨⟨b, first⟩, bs, others⟩
    · rintro ⟨⟨b, first⟩, bs, others⟩
      exact ⟨b, first, bind_ok_iff.mpr ⟨bs, others, _, rfl⟩⟩

end results

/-- The stack can be shown: the digits of the output base can be written in decimal, or there is no
integer that would need them. -/
def Store.Showable (s : Store) : Prop :=
  s.outputBase ≤ decimalLimit ∨ ∀ n, Value.int n ∉ s.stack

namespace Report

theorem stackTexts_ok_iff {s : Store} (base : 2 ≤ s.outputBase) :
    (∃ texts, stackTexts s = .ok texts) ↔ s.Showable := by
  rw [stackTexts, mapM_ok_iff]
  constructor
  · intro shown
    by_cases le : s.outputBase ≤ decimalLimit
    · exact .inl le
    · refine .inr fun n mem => ?_
      obtain ⟨t, written⟩ := shown _ mem
      cases (Numeral.render_of_lt (Int.not_le.mp le) n).symm.trans written
  · intro showable v mem
    cases v with
    | int n =>
      obtain le | none := showable
      · exact Numeral.render_of_le base le n
      · exact absurd mem (none n)
    | float x => exact ⟨_, rfl⟩
    | text t => exact ⟨_, rfl⟩

theorem text_short_ok (t : Traceback) (s : Store) : ∃ report, text t s false = .ok report :=
  ⟨_, rfl⟩

theorem text_verbose_ok_iff (t : Traceback) {s : Store} (base : 2 ≤ s.outputBase) :
    (∃ report, text t s true = .ok report) ↔ s.Showable := by
  rw [← stackTexts_ok_iff base, ← map_ok_iff (g := fun texts => [stackLine texts])]
  refine bind_ok_iff.trans ⟨?_, ?_⟩
  · rintro ⟨lines, shown, -⟩
    exact ⟨lines, shown⟩
  · rintro ⟨lines, shown⟩
    exact ⟨lines, shown, _, rfl⟩

theorem json_ok_iff (t : Traceback) {s : Store} (base : 2 ≤ s.outputBase) :
    (∃ document, json t s = .ok document) ↔ s.Showable := by
  rw [← stackTexts_ok_iff base]
  refine bind_ok_iff.trans ⟨?_, ?_⟩
  · rintro ⟨texts, shown, -⟩
    exact ⟨texts, shown⟩
  · rintro ⟨texts, shown⟩
    exact ⟨texts, shown, _, rfl⟩

end Report

namespace Session

variable {s s' : Session} {host : Host} {limit : Nat} {name source : Text} {t : Traceback}

theorem last_of_run (ran : s.run host limit name source = some (.error (.fault t), s')) :
    s'.last = some t := by
  obtain ⟨⟨result, m⟩, -, ended⟩ := Option.map_eq_some_iff.mp ran
  dsimp only at ended
  split at ended
  · obtain ⟨same, rfl⟩ := Prod.mk.inj ended
    cases same
    rfl
  · rename_i other
    exact absurd (congrArg Prod.fst ended) (other t)

/-- After every run that raises a fault there is a short report, and there are the reports that show
the stack if and only if the stack can be shown. -/
theorem reports_iff (reached : Reached s)
    (ran : s.run host limit name source = some (.error (.fault t), s')) :
    (∃ text, s'.report false = some (.ok text)) ∧
      ((∃ text, s'.report true = some (.ok text)) ↔ s'.machine.store.Showable) ∧
      ((∃ text, s'.jsonReport = some (.ok text)) ↔ s'.machine.store.Showable) := by
  have base : 2 ≤ s'.machine.store.outputBase :=
    (valid_reached (reached.run ran)).store.outputBase
  simp only [report, jsonReport, last_of_run ran, Option.map_some, Option.some.injEq]
  refine ⟨Report.text_short_ok t _, Report.text_verbose_ok_iff t base, ?_⟩
  exact map_ok_iff.trans (Report.json_ok_iff t base)

/-- A program that has failed in base 40 with two integers on the stack. -/
theorem reports_iff_base_forty :
    ∃ t s', (start false).run {} 20 [] (Text.ofString "40o 1599 1 e") =
        some (.error (.fault t), s') ∧ s'.machine.store.stack = [.int 1, .int 1599] ∧
      (∃ text, s'.report true = some (.ok text)) ∧ ∃ text, s'.jsonReport = some (.ok text) := by
  have fails : ((start false).run {} 20 [] (Text.ofString "40o 1599 1 e")).bind (fun r =>
      (Machine.raised? r.1).map fun _ => (r.2.machine.store.stack, r.2.machine.store.outputBase)) =
        some ([.int 1, .int 1599], 40) := by
    decide +kernel
  obtain ⟨⟨result, s'⟩, ran, failed⟩ := Option.bind_eq_some_iff.mp fails
  obtain ⟨t, raised, left⟩ := Option.map_eq_some_iff.mp failed
  obtain rfl := Machine.eq_of_raised raised
  obtain ⟨stack, base⟩ := Prod.mk.inj left
  have showable : s'.machine.store.Showable := by
    refine .inl ?_
    rw [base]
    decide +kernel
  obtain ⟨-, verbose, json⟩ := reports_iff (.start false) ran
  exact ⟨t, s', ran, stack, verbose.mpr showable, json.mpr showable⟩

/-- `10 4300^1+o1e` fails with an integer on the stack and an output base whose digits are too long to
be written: no report that shows the stack can be given. -/
theorem reports_lost :
    ∃ t s', (start false).run {} 20 [] (Text.ofString "10 4300^1+o1e") =
        some (.error (.fault t), s') ∧ s'.report true = some (.error .numeralTooLong) ∧
      s'.jsonReport = some (.error .numeralTooLong) := by
  have fails : ((start false).run {} 20 [] (Text.ofString "10 4300^1+o1e")).bind (fun r =>
      (Machine.raised? r.1).map fun _ => (r.2.machine.store.stack, r.2.machine.store.outputBase)) =
        some ([.int 1], (decimalLimit : Int) + 1) := by
    decide +kernel
  obtain ⟨⟨result, s'⟩, ran, failed⟩ := Option.bind_eq_some_iff.mp fails
  obtain ⟨t, raised, left⟩ := Option.map_eq_some_iff.mp failed
  obtain rfl := Machine.eq_of_raised raised
  obtain ⟨stack, base⟩ := Prod.mk.inj left
  have unwritten : Report.stackTexts s'.machine.store = .error .numeralTooLong := by
    rw [Report.stackTexts, stack, base, List.mapM_cons, Value.shown,
      Numeral.render_of_lt (Int.lt_succ _)]
    rfl
  refine ⟨t, s', ran, ?_, ?_⟩
  · simp only [report, last_of_run ran, Option.map_some, Report.text, unwritten]
    rfl
  · simp only [jsonReport, last_of_run ran, Option.map_some, Report.json, unwritten]
    rfl

end Session

end DeskCalculator
