import DeskCalculator.Proofs.Machine.Simulation

/-!
Letting a callee take over the frame of a finished caller changes nothing but the frames, as long as
no quit counts them.
-/

namespace DeskCalculator

namespace Machine

variable {host : Host} {name source : Text} {start m : Machine}

/-- A program that comes to no quit, in whichever way it is called, has the same outcomes whether a
callee takes over the frame of a finished caller or not: it ends normally with the same result, it
fails with the same fault at the same step, or it does not end. The machines that are left are the
same but for the counts of frames in what they have recorded. -/
theorem flattening_preserves (calling : Calling) (obliging : host.Obliging)
    (builtIn : start.overrides = {})
    (quitless : ∀ m calls, Underway host calling name source start m calls →
      m.pending? ≠ some (.scalar 'q') ∧ m.pending? ≠ some (.scalar 'Q'))
    (o : Except RunFailure Signal × Machine) :
    (∃ limit, outcome unframed (run host .flat limit name source start) = some o) ↔
      ∃ limit, outcome unframed (run host .nested limit name source start) = some o := by
  have view := view_unframed obliging
  refine outcome_iff view ?_ o
  intro m n calls calls' flatly nested same flat
  refine step_mirrors view (flatly.overrides.trans builtIn) flatly.running ?_ same flat
  cases calling with
  | flat =>
    obtain ⟨q, Q⟩ := quitless m calls flatly
    exact quits?_of_unquitting q Q
  | nested =>
    obtain ⟨q, Q⟩ := quitless n calls' nested
    exact (quits?_flattened (view.bare same) flat).trans (quits?_of_unquitting q Q)

/-- The call at the end of `[1p]x` is flattened, and the program comes to no quit. -/
theorem flattening_preserves_call :
    let source := Text.ofString "[1p]x"
    let o := outcome unframed (run {} .nested 9 [] source {})
    o.isSome ∧ (∀ m calls, Underway {} .flat [] source {} m calls →
      m.pending? ≠ some (.scalar 'q') ∧ m.pending? ≠ some (.scalar 'Q')) ∧
    ∃ limit, outcome unframed (run {} .flat limit [] source {}) = o := by
  intro source o
  have some : o.isSome := by decide +kernel
  have reached : ∀ i < 5, (leftState (stepsOf {} .flat [] source {} i)).pending? ≠
      .some (.scalar 'q') ∧
        (leftState (stepsOf {} .flat [] source {} i)).pending? ≠ .some (.scalar 'Q') := by
    decide +kernel
  have quitless : ∀ m calls, Underway {} .flat [] source {} m calls →
      m.pending? ≠ .some (.scalar 'q') ∧ m.pending? ≠ .some (.scalar 'Q') := by
    intro m calls h
    obtain ⟨i, lt, rfl⟩ := h.before (i := 5) (by decide +kernel)
    exact reached i lt
  obtain ⟨o', ho⟩ := Option.isSome_iff_exists.mp some
  have preserved := flattening_preserves .flat Host.obliging_default rfl quitless o'
  rw [ho]
  exact ⟨rfl, quitless, preserved.mpr ⟨9, ho⟩⟩

end Machine

end DeskCalculator
