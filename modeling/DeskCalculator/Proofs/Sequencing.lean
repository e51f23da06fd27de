import DeskCalculator.Proofs.Machine.Continuing

/-!
Programs one after the other. A program that returns without having come to a quit, and leaves no
string open, may be written in front of another one on lines of their own: the text does what the two
programs do in turn.
-/

namespace DeskCalculator.Machine

variable {host : Host} {name first : Text} {start m : Machine} {limit : Nat}

/-- A program that leaves none of its strings open: wherever it stands at a string of its own text,
and not of a macro, the string is closed. -/
def StringsClosed (host : Host) (name source : Text) (start : Machine) : Prop :=
  ∀ m calls frame, Underway host .flat name source start m calls → m.frames = [frame] →
    frame.tailDepth = 1 → frame.cursor.peek? = some (.scalar '[') →
      (Literal.closing? 0 (frame.cursor.advance 1).rest).isSome

/-- After a program that has returned, another one does the same as it does behind the first one, in
one text with it: it returns the same signal or fails for the same cause, with the same store and with
the same outputs of the two together, or it does not end. -/
theorem sequenced (name' name'' second : Text) (obliging : host.Obliging)
    (builtIn : start.overrides = {})
    (returned : run host .flat limit name first start = some (.ok .okay, m))
    (quitless : Quitless host name first start) (closed : StringsClosed host name first start)
    (o : Except RunFailure Signal × Store × History) :
    (∃ limit, summary (run host .flat limit name' second m) = some o) ↔
      ∃ limit, summary (run host .flat limit name'' (first ++ .scalar '\n' :: second) start) =
        some o := by
  have bounded : ∀ m calls, Underway host .flat name first start m calls → m.Closed first := by
    intro m calls underway frame frames single _ bracket
    exact closed m calls frame underway frames single bracket
  have behind := continues_behind obliging (.line second) builtIn bounded quitless returned name''
  have unwound := run_unwind obliging builtIn quitless returned
  have alone := continues_alone obliging behind.builtIn unwound name' second
  exact alone.outcomes obliging behind o

/-- The macro at the end of `[1p]x` takes over its frame, and gets a frame of its own in front of
`2p3Q`, which quits beyond the program either way. -/
theorem sequenced_quit :
    let first := Text.ofString "[1p]x"
    let second := Text.ofString "2p3Q"
    ∃ m o, run {} .flat 9 [] first {} = some (.ok .okay, m) ∧
      summary (run {} .flat 9 [] second m) = some o ∧ o.1.toOption = some .quit ∧
      o.2.2 = [.wrote (Text.ofString "2\n"), .wrote (Text.ofString "1\n")] ∧
      ∃ limit, summary (run {} .flat limit [] (first ++ .scalar '\n' :: second) {}) = some o := by
  intro first second
  have ends : goesOn (stepsOf {} .flat [] first {} 5) = false := by decide +kernel
  have unquit : ∀ i < 5, (leftState (stepsOf {} .flat [] first {} i)).pending? ≠
      some (.scalar 'q') ∧
        (leftState (stepsOf {} .flat [] first {} i)).pending? ≠ some (.scalar 'Q') := by
    decide +kernel
  have shut : ∀ i < 5, (leftState (stepsOf {} .flat [] first {} i)).frames.all fun frame =>
      frame.cursor.peek? ≠ some (.scalar '[') ∨
        (Literal.closing? 0 (frame.cursor.advance 1).rest).isSome := by
    decide +kernel
  have quitless : Quitless {} [] first {} := by
    intro m calls underway
    obtain ⟨i, lt, rfl⟩ := underway.before ends
    exact unquit i lt
  have closed : StringsClosed {} [] first {} := by
    intro m calls frame underway frames _ bracket
    obtain ⟨i, lt, rfl⟩ := underway.before ends
    have shut := shut i lt
    rw [frames] at shut
    simpa [bracket] using shut
  have outcomes : (run {} .flat 9 [] first {}).bind (fun r =>
      (summary (run {} .flat 9 [] second r.2)).map fun o => (r.1.toOption, o.1.toOption, o.2.2)) =
        some (some .okay, some .quit,
          [.wrote (Text.ofString "2\n"), .wrote (Text.ofString "1\n")]) := by
    decide +kernel
  obtain ⟨⟨result, m⟩, ran, rest⟩ := Option.bind_eq_some_iff.mp outcomes
  obtain ⟨o, ended, outcome⟩ := Option.map_eq_some_iff.mp rest
  obtain ⟨succeeds, outcome⟩ := Prod.mk.inj outcome
  obtain ⟨quits, outputs⟩ := Prod.mk.inj outcome
  cases result with
  | error => cases succeeds
  | ok signal =>
    obtain rfl : signal = .okay := Option.some.inj succeeds
    have same := sequenced [] [] second Host.obliging_default rfl ran quitless closed o
    exact ⟨m, o, ran, ended, quits, outputs, same.mp ⟨9, ended⟩⟩

end DeskCalculator.Machine
