import DeskCalculator.Proofs.Journal
import DeskCalculator.Proofs.Loops
import DeskCalculator.Proofs.Machine.Advance
import DeskCalculator.Proofs.Machine.Waiting

/-!
Why programs end. Every instruction moves the cursor of its frame on, so a text has no more
instructions than characters to dispatch before another text takes its place. A program that calls no
text ends within as many steps as it has characters, and the loops inside of its instructions end
because the output base is never below two.
-/

namespace DeskCalculator

namespace Machine

variable {host : Host} {calling : Calling} {name source text : Text} {start m m' : Machine}
  {calls : List Nat} {f f' : Frame} {callers below : List Frame}

/-- The frame that stays where it was when its instruction has been executed has moved on. -/
theorem ahead_of_step {signal : Option Signal} (builtIn : m.overrides = {})
    (frames : m.frames = f :: below) (stepped : step host calling m = .ok signal m')
    (there : f' :: below <:+ m'.frames) (same : f'.tailDepth = f.tailDepth) :
    (f.cursor.advance 1).Ahead f'.cursor := by
  have advances := advances_of_step builtIn frames stepped
  generalize m'.frames = frames' at there advances
  cases advances with
  | left left =>
    have longer := (there.trans left).length_le
    rw [List.length_cons] at longer
    omega
  | goesOn ahead =>
    obtain rfl := eq_of_suffix there List.suffix_rfl
    exact ahead
  | waits ahead =>
    obtain rfl := eq_of_suffix there (List.suffix_cons _ _)
    exact ahead
  | replaced _ deeper =>
    obtain rfl := eq_of_suffix there List.suffix_rfl
    omega

/-- A frame has dispatched no more instructions than its cursor has passed characters. -/
theorem Reading.bounded {ps : List Nat} (h : Reading host calling text below m f ps) :
    ps.length ≤ f.cursor.index ∧ f.cursor.index ≤ text.length := by
  induction h with
  | begins _ _ fresh =>
    rw [fresh]
    exact ⟨Nat.le_refl _, Nat.zero_le _⟩
  | dispatches reading innermost pending stepped there same ih =>
    obtain ⟨inText, onward, within⟩ :=
      ahead_of_step reading.builtIn innermost stepped there same
    rw [List.length_append, List.length_singleton]
    refine ⟨Nat.le_trans (Nat.succ_le_succ ih.1) onward, ?_⟩
    rw [← reading.passed.1]
    exact within
  | waits _ _ _ _ ih => exact ih

theorem Reading.bounded_pending {ps : List Nat} {ch : CodePoint}
    (h : Reading host calling text below m f ps) (pending : f.cursor.peek? = some ch) :
    ps.length < text.length := by
  have here := Cursor.index_lt_of_peek? pending
  rw [h.passed.1] at here
  exact Nat.lt_of_le_of_lt h.bounded.1 here

/-- A step enters at most one instruction in the journal. -/
theorem next_of_step (host : Host) (calling : Calling) (m : Machine) :
    (leftState (step host calling m)).journal.next ≤ m.journal.next + 1 := by
  rw [journal_of_step]
  change m.journal.next + (m.dispatched? host).toList.length ≤ _
  cases m.dispatched? host <;> simp

theorem steps_of_ended {result : EStateM.Result Failure Machine (Option Signal)}
    (stepped : step host calling m = result) (ended : goesOn result = false) (left : Nat) :
    steps host calling (left + 1) m = result :=
  steps_stay ((steps_one m).trans stepped) ended (by omega)

/-- A run that calls no text. -/
def Quiet (host : Host) (calling : Calling) (name source : Text) (start : Machine) : Prop :=
  ∀ m calls, Underway host calling name source start m calls →
    ∀ move ∈ m.move? host, move.isCall = false

/-- The only frame goes on in its text when a step calls nothing and the run is not over. -/
theorem ahead_of_quiet_step (builtIn : m.overrides = {}) (frames : m.frames = [f])
    (quiet : ∀ move ∈ m.move? host, move.isCall = false)
    (stepped : step host calling m = .ok none m') :
    ∃ f', m'.frames = [f'] ∧ (f.cursor.advance 1).Ahead f'.cursor := by
  obtain ⟨turn, running⟩ := step_turn (frames ▸ List.cons_ne_nil _ _) stepped
  have running := running.mp rfl
  have ahead := @ahead_of_move host m f []
  rw [frames] at turn
  generalize m.move? host = move at turn ahead quiet
  generalize m'.frames = frames' at turn running
  cases turn with
  | leave signal unwind =>
    exact absurd (List.eq_nil_of_suffix_nil (Frame.unwound_suffix signal unwind [])) running
  | goOn => exact ⟨_, rfl, ahead builtIn frames rfl⟩
  | call => cases quiet _ rfl

/-- A quiet run that has `left` characters before it ends within as many steps, and one more at the
end. -/
theorem ends_of_quiet (quiet : Quiet host calling name source start)
    (builtIn : start.overrides = {}) (left : Nat)
    (h : Underway host calling name source start m calls) (frames : m.frames = [f])
    (inText : f.cursor.text = source) (near : source.length ≤ f.cursor.index + left) :
    goesOn (steps host calling (left + 1) m) = false ∧
      (leftState (steps host calling (left + 1) m)).journal.next ≤ m.journal.next + left := by
  -- What is left gets less with each step, since the only frame is never replaced.
  induction left generalizing m calls f with
  | zero =>
    have atEnd : f.cursor.peek? = none := by
      rw [Cursor.peek?_eq, inText]
      exact List.getElem?_eq_none near
    rw [steps_one, step_of_end frames atEnd]
    exact ⟨rfl, Nat.le_refl _⟩
  | succ left ih =>
    have entered := next_of_step host calling m
    cases stepped : step host calling m with
    | error failure m₁ =>
      rw [stepped] at entered
      rw [steps_of_ended stepped rfl]
      exact ⟨rfl, Nat.le_trans entered (by omega)⟩
    | ok signal m₁ =>
      rw [stepped] at entered
      change m₁.journal.next ≤ m.journal.next + 1 at entered
      cases signal with
      | some signal =>
        rw [steps_of_ended stepped rfl]
        exact ⟨rfl, Nat.le_trans entered (by omega)⟩
      | none =>
        obtain ⟨f', frames', ahead⟩ :=
          ahead_of_quiet_step (h.overrides.trans builtIn) frames (quiet m calls h) stepped
        have onward : f.cursor.index + 1 ≤ f'.cursor.index := ahead.onward
        obtain ⟨ended, logged⟩ :=
          ih (h.step stepped) frames' (ahead.inText.trans inText) (by omega)
        rw [steps_succ stepped]
        exact ⟨ended, by omega⟩

theorem exists_verdict (host : Host) {result : EStateM.Result Failure Machine (Option Signal)}
    (ended : goesOn result = false) : ∃ outcome, verdict host result = some outcome := by
  cases result with
  | error failure m => exact ⟨_, rfl⟩
  | ok signal m =>
    cases signal with
    | none => cases ended
    | some signal => exact ⟨_, rfl⟩

/-- A program that calls no text ends, and enters no more instructions than it has characters. -/
theorem run_ends_of_quiet (quiet : Quiet host calling name source start)
    (builtIn : start.overrides = {}) :
    ∃ result m', run host calling (source.length + 1) name source start = some (result, m') ∧
      m'.journal.next ≤ start.journal.next + source.length := by
  have begun := journal_of_emit host (.programStart source) start.cleared
  cases told : emit host (.programStart source) start.cleared with
  | error failure m₁ =>
    rw [told] at begun
    have same : m₁.journal = start.journal := begun
    exact ⟨_, m₁, run_of_refused told _, same ▸ Nat.le_add_right _ _⟩
  | ok _ m₁ =>
    rw [told] at begun
    have same : m₁.journal = start.journal := begun
    obtain ⟨ended, logged⟩ :=
      ends_of_quiet quiet builtIn source.length (.begin told) rfl rfl (by simp)
    obtain ⟨⟨result, m'⟩, concluded⟩ := exists_verdict host ended
    refine ⟨result, m', (run_of_told told _).trans concluded, ?_⟩
    rw [journal_of_verdict concluded, ← same]
    exact logged

/-- With the built-in instructions every one that is executed moves its frame on: its cursor comes
further in the text and not beyond the end, unless the frame is left or another text takes its
place. So a text dispatches no more instructions than it has characters, be the one at the cursor the
last, until it ends, is left or replaced, wherever it is executed, and so does every text of a run.
A program that calls no text comes to an end, whatever its host does, and has entered no more
instructions in the journal than it has characters; and where a machine of such a run prints an
integer or counts its digits, the loops end as well. -/
theorem programs_terminate (host : Host) (calling : Calling) :
    (∀ m m' f callers signal, m.overrides = {} → m.frames = f :: callers →
      step host calling m = .ok signal m' → Advances f callers m'.frames) ∧
    (∀ text below m f ps, Reading host calling text below m f ps →
      ps.length ≤ f.cursor.index ∧ f.cursor.index ≤ text.length ∧
      ∀ ch, f.cursor.peek? = some ch → (ps ++ [f.cursor.index]).length ≤ text.length) ∧
    ∀ name source start, start.Valid →
      (∀ m calls f below, Underway host calling name source start m calls →
        f :: below <:+ m.frames → ∃ ps, Reading host calling f.cursor.text below m f ps) ∧
      (∀ m, Passes host calling name source start m → ∀ n : Int,
        (∃ passes left, Numeral.Counting m.store.outputBase
          (n.natAbs, if n < 0 then 2 else 1) passes
          (left, (Value.int n).length m.store.outputBase m.store.two_le_outputBase)) ∧
        ∃ passes, Numeral.Collecting m.store.outputBase (n.natAbs, []) passes
          (0, (Numeral.digits m.store.outputBase.toNat n.natAbs
            (Numeral.two_le_toNat m.store.two_le_outputBase)).reverse.map
            fun d : Nat => (d : Int))) ∧
      (Quiet host calling name source start →
        ∃ result m', run host calling (source.length + 1) name source start =
          some (result, m') ∧ m'.journal.next ≤ start.journal.next + source.length) := by
  refine ⟨?_, ?_, fun name source start valid => ⟨?_, ?_, ?_⟩⟩
  · intro m m' f callers signal builtIn frames stepped
    exact advances_of_step builtIn frames stepped
  · intro text below m f ps reading
    refine ⟨reading.bounded.1, reading.bounded.2, fun ch pending => ?_⟩
    rw [List.length_append, List.length_singleton]
    exact reading.bounded_pending pending
  · intro m calls f below underway there
    exact underway.allRead valid.builtIn f below there
  · intro m _ n
    exact Numeral.loops_end m.store.two_le_outputBase n
  · intro quiet
    exact run_ends_of_quiet quiet valid.builtIn

/-- `_5Z 16o 27p` counts digits and prints, and calls nothing. -/
theorem programs_terminate_printing :
    let source := Text.ofString "_5Z 16o 27p"
    let begun : Machine := { frames := [Frame.ofText [] source] }
    (∃ m', step {} .flat begun = .ok none m' ∧
      Advances (Frame.ofText [] source) [] m'.frames) ∧
    (Reading {} .flat source [] begun (Frame.ofText [] source) [] ∧
      ([] ++ [0]).length ≤ source.length) ∧
    (∃ passes left, Numeral.Counting 10 (5, 2) passes (left, 2)) ∧
    ∃ result m', run {} .flat 12 [] source {} = some (result, m') ∧ m'.journal.next ≤ 11 := by
  intro source begun
  obtain ⟨advances, bounded, programs⟩ := programs_terminate {} .flat
  have valid : ({} : Machine).Valid := ⟨Store.valid_empty, rfl⟩
  obtain ⟨-, loops, terminates⟩ := programs [] source {} valid
  have reading : Reading {} .flat source [] begun (Frame.ofText [] source) [] :=
    .begins rfl rfl rfl
  have stepped : step {} .flat begun = .ok none (leftState (step {} .flat begun)) := rfl
  refine ⟨⟨_, stepped, advances _ _ _ _ _ rfl rfl stepped⟩, ?_, ?_, ?_⟩
  · exact ⟨reading, (bounded _ _ _ _ _ reading).2.2 (.scalar '_') rfl⟩
  · obtain ⟨passes, left, counting⟩ := (loops _ .cleared (-5)).1
    have length : (Value.int (-5)).length 10 = 2 := by decide +kernel
    exact ⟨passes, left, length ▸ counting⟩
  · refine terminates fun m calls underway => ?_
    have ended : goesOn (stepsOf {} .flat [] source {} 12) = false := by decide +kernel
    have quiet : ∀ j < 12, ∀ move ∈ (leftState (stepsOf {} .flat [] source {} j)).move? {},
        move.isCall = false := by
      decide +kernel
    obtain ⟨j, earlier, rfl⟩ := underway.before ended
    exact quiet j earlier

end Machine

end DeskCalculator
