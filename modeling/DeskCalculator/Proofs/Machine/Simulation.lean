import DeskCalculator.Proofs.Machine.Mirror

/-!
Two runs of a program side by side: one lets callees take over, and the other gives every call a
frame of its own. What is to be seen of them is the same after every step of the first and some
steps of the second, so they end alike, or neither of them ends.
-/

namespace DeskCalculator

def Traceback.unplaced (t : Traceback) : Traceback := { t with places := [] }

/-- A failure of a run without the places that its traceback shows. -/
def RunFailure.unplaced : RunFailure → RunFailure
  | fault t => .fault t.unplaced
  | breakdown b => .breakdown b

theorem through_through {ε σ τ ρ α : Type} (f : τ → ρ) (g : σ → τ) (r : EStateM.Result ε σ α) :
    through f (through g r) = through (f ∘ g) r := by
  cases r <;> rfl

namespace Machine

variable {host : Host} {name source : Text} {start m n : Machine} {v : Machine → Machine}

/-- A machine without its frames, every count of frames and the number of levels to unwind. -/
def bare (m : Machine) : Machine := (m.setUnwind 0).unframed

/-- A view of a machine that shows nothing of its frames, but all that an instruction goes by. -/
structure View (host : Host) (v : Machine → Machine) : Prop where
  frames : ∀ m frames, v { m with frames } = v m
  bare : ∀ {m n}, v m = v n → m.bare = n.bare
  emit : ∀ event, Agree v (emit host event) (emit host event)
  execute : ∀ {name cursor m n} {f g : Frame} {fs gs : List Frame}, m.overrides = {} →
    (Instruction.ofName name).levels? m.store = none → f.cursor = g.cursor →
    f.turned = g.turned → v m = v n →
    through v (execute host name cursor f fs m) = through v (execute host name cursor g gs n)

theorem bare_eq_iff : m.bare = n.bare ↔
    m.store.setUnwind 0 = n.store.setUnwind 0 ∧ m.overrides = n.overrides ∧
      m.journal.unframed = n.journal.unframed ∧
        m.history.map Effect.unframed = n.history.map Effect.unframed := unframed_eq_iff

theorem levels?_of_bare (same : m.bare = n.bare) (i : Instruction) :
    i.levels? m.store = i.levels? n.store := by
  have store := (bare_eq_iff.mp same).1
  rw [← Instruction.levels?_setUnwind m.store, store, Instruction.levels?_setUnwind]

theorem view_unframed (obliging : host.Obliging) : View host unframed where
  frames _ _ := rfl
  bare := by
    intro m n same
    obtain ⟨store, rest⟩ := unframed_eq_iff.mp same
    exact bare_eq_iff.mpr ⟨by rw [store], rest⟩
  emit event := agree_emit obliging event
  execute _ _ cursor turned same := agree_execute obliging _ cursor turned _ _ _ _ same

theorem view_bare (obliging : host.Obliging) : View host bare where
  frames _ _ := rfl
  bare same := same
  emit event := by
    intro m n same
    have alike := agree_emit obliging event _ _ same
    rw [commutes_emit host event m, commutes_emit host event n, through_through,
      through_through] at alike
    exact alike
  execute := by
    intro name cursor m n f g fs gs builtIn levels cursors turned same
    have builtIn' : n.overrides = {} := (bare_eq_iff.mp same).2.1.symm.trans builtIn
    have levels' := (levels?_of_bare same (Instruction.ofName name)).symm.trans levels
    have alike : through unframed (execute host name cursor f fs (m.setUnwind 0)) =
        through unframed (execute host name cursor g gs (n.setUnwind 0)) :=
      agree_execute obliging cursor cursors turned fs gs _ _ same
    rw [execute_setUnwind builtIn levels, execute_setUnwind builtIn' levels', through_through,
      through_through] at alike
    exact alike

theorem pending?_flattened (flat : Flattened m.frames n.frames) : m.pending? = n.pending? := by
  simp only [pending?, flat.cursor]

theorem quits?_flattened (same : m.bare = n.bare) (flat : Flattened m.frames n.frames) :
    m.quits? = n.quits? := by
  simp only [quits?, pending?_flattened flat, levels?_of_bare same]

/-- Steps of the two machines that have come to the same. -/
inductive Mirrors (v : Machine → Machine) : EStateM.Result Failure Machine (Option Signal) →
    EStateM.Result Failure Machine (Option Signal) → Prop where
  | going {m n : Machine} (same : v m = v n) (flat : Flattened m.frames n.frames) :
      Mirrors v (.ok none m) (.ok none n)
  | ended {signal : Signal} {m n : Machine} (same : v m = v n) :
      Mirrors v (.ok (some signal) m) (.ok (some signal) n)
  | failed {failure : Failure} {m n : Machine} (same : v m = v n) :
      Mirrors v (.error failure m) (.error failure n)

theorem mirrors_over (view : View host v) {fs gs : List Frame} (flat : Flattened fs gs)
    (same : v m = v n) (signal : Signal) :
    Mirrors v (.ok (over? signal fs) { m with frames := fs })
      (.ok (over? signal fs) { n with frames := gs }) := by
  have same' : v { m with frames := fs } = v { n with frames := gs } := by
    rw [view.frames m fs, view.frames n gs, same]
  cases over? signal fs with
  | none => exact .going same' flat
  | some signal => exact .ended same'

/-- As long as no quit succeeds, each step of the flat machine is mirrored. -/
theorem step_mirrors (view : View host v) (builtIn : m.overrides = {}) (running : m.frames ≠ [])
    (quitless : m.quits? = none) (same : v m = v n) (flat : Flattened m.frames n.frames) :
    ∃ k, Mirrors v (step host .flat m) (steps host .nested (k + 1) n) := by
  obtain ⟨f, fs, frames⟩ := List.exists_cons_of_ne_nil running
  rw [frames] at flat
  cases pending : f.cursor.peek? with
  | none =>
    have one := flat.deep f List.mem_cons_self
    refine ⟨f.tailDepth - 1, ?_⟩
    rw [step_of_end frames pending, Nat.sub_add_cancel one, steps_end flat pending]
    exact mirrors_over view flat.tail same .okay
  | some ch =>
    have levels := (quits?_of_pending frames pending).symm.trans quitless
    refine ⟨0, ?_⟩
    generalize frames' : n.frames = nested at flat
    cases flat.mirrored with
    | @live _ g _ gs cursor turned single rest =>
      have pending' : g.cursor.peek? = some ch := cursor ▸ pending
      rw [Nat.zero_add, steps_one, step_of_pending frames pending, step_of_pending frames' pending',
        cursor]
      have alike : through v (execute host [ch] (f.cursor.advance 1) f fs m) =
          through v (execute host [ch] (f.cursor.advance 1) g gs n) :=
        view.execute builtIn levels cursor.symm turned.symm same
      obtain ⟨move, m₁, n₁, executed, executed', same'⟩ |
        ⟨failure, m₁, n₁, executed, executed', same'⟩ := cases_of_through_eq alike
      · have asked := execute_ne_quit builtIn levels executed
        obtain ⟨fs', gs', followed, followed', flat'⟩ :=
          follow_flattened flat asked (f.cursor.advance 1) m₁ n₁
        rw [bind_ok executed, bind_ok executed', followed, followed']
        exact .going (by rw [view.frames m₁ fs', view.frames n₁ gs', same']) flat'
      · rw [bind_error executed, bind_error executed']
        exact .failed same'

/-- The outcome of a run as it is seen through `v`, without the places of a traceback. -/
def outcome (v : Machine → Machine) (r : Option (Except RunFailure Signal × Machine)) :
    Option (Except RunFailure Signal × Machine) :=
  r.map fun (result, m) => (result.mapError RunFailure.unplaced, v m)

/-- A run has one outcome. -/
theorem outcome_unique {calling : Calling} {i j : Nat} {o o' : Except RunFailure Signal × Machine}
    (h : outcome v (run host calling i name source start) = some o)
    (h' : outcome v (run host calling j name source start) = some o') : o = o' := by
  obtain ⟨r, ended, rfl⟩ := Option.map_eq_some_iff.mp h
  obtain ⟨r', ended', rfl⟩ := Option.map_eq_some_iff.mp h'
  have one := (run_stay ended (Nat.le_max_left i j)).symm.trans
    (run_stay ended' (Nat.le_max_right i j))
  rw [Option.some.inj one]

theorem outcome_conclude (view : View host v) (event : Event)
    {result result' : Except RunFailure Signal}
    (results : result.mapError RunFailure.unplaced = result'.mapError RunFailure.unplaced)
    (same : v m = v n) :
    outcome v (some (conclude host event result m)) =
      outcome v (some (conclude host event result' n)) := by
  obtain ⟨⟨⟩, m', n', told, told', same'⟩ | ⟨failure, m', n', refused, refused', same'⟩ :=
    cases_of_through_eq (view.emit event m n same)
  · simp only [outcome, conclude, told, told', Option.map_some, results, same']
  · simp only [outcome, conclude, refused, refused', Option.map_some, same']

theorem traceback_unplaced (same : m.journal.unframed = n.journal.unframed) (failure : Failure) :
    (m.traceback failure).unplaced = (n.traceback failure).unplaced := by
  have last : m.journal.unframed.last = n.journal.unframed.last := by rw [same]
  have next : m.journal.unframed.next = n.journal.unframed.next := by rw [same]
  simp only [Journal.unframed] at last next
  simp only [traceback, Traceback.unplaced, Journal.lastStep?, last, next]

theorem verdict_mirrors (view : View host v)
    {r r' : EStateM.Result Failure Machine (Option Signal)} (h : Mirrors v r r') :
    outcome v (verdict host r) = outcome v (verdict host r') := by
  cases h with
  | going => rfl
  | ended same => exact outcome_conclude view _ rfl same
  | @failed failure m n same =>
    have journals := (bare_eq_iff.mp (view.bare same)).2.2.1
    have tracebacks := traceback_unplaced journals failure
    have faults : (m.traceback failure).unplaced.fault = (n.traceback failure).unplaced.fault := by
      rw [tracebacks]
    simp only [Traceback.unplaced] at faults
    simp only [verdict, faults]
    refine outcome_conclude view _ ?_ (by rw [view.frames m, view.frames n, same])
    exact congrArg (fun t => Except.error (RunFailure.fault t)) tracebacks

/-- What makes two runs of a program mirror each other: wherever the flat one has come to, its next
step is mirrored by some steps of the other. -/
def Simulates (host : Host) (v : Machine → Machine) (name source : Text) (start : Machine) : Prop :=
  ∀ {m n calls calls'}, Underway host .flat name source start m calls →
    Underway host .nested name source start n calls' → v m = v n → Flattened m.frames n.frames →
    ∃ k, Mirrors v (step host .flat m) (steps host .nested (k + 1) n)

theorem steps_mirror (simulates : Simulates host v name source start) {calls calls' : List Nat}
    (flatly : Underway host .flat name source start m calls)
    (nested : Underway host .nested name source start n calls') (same : v m = v n)
    (flat : Flattened m.frames n.frames) (j : Nat) :
    ∃ k, j ≤ k ∧ Mirrors v (steps host .flat j m) (steps host .nested k n) := by
  -- The nested run is given at least as many steps, so that its end is the end of the flat run too.
  induction j generalizing m n calls calls' with
  | zero => exact ⟨0, Nat.le_refl _, .going same flat⟩
  | succ j ih =>
    obtain ⟨k, mirrors⟩ := simulates flatly nested same flat
    generalize stepped : step host .flat m = r at mirrors
    generalize walked : steps host .nested (k + 1) n = r' at mirrors
    cases mirrors with
    | going same' flat' =>
      obtain ⟨calls'', nested'⟩ := nested.steps walked
      obtain ⟨k', le, mirrors⟩ := ih (flatly.step stepped) nested' same' flat'
      refine ⟨k + 1 + k', by omega, ?_⟩
      rwa [steps_succ stepped, steps_add walked]
    | ended same' =>
      refine ⟨max (k + 1) (j + 1), Nat.le_max_right _ _, ?_⟩
      rw [steps_stay ((steps_one m).trans stepped) rfl (by omega),
        steps_stay walked rfl (Nat.le_max_left _ _)]
      exact .ended same'
    | failed same' =>
      refine ⟨max (k + 1) (j + 1), Nat.le_max_right _ _, ?_⟩
      rw [steps_stay ((steps_one m).trans stepped) rfl (by omega),
        steps_stay walked rfl (Nat.le_max_left _ _)]
      exact .failed same'

/-- Runs that mirror each other have the same outcomes. -/
theorem outcome_iff (view : View host v) (simulates : Simulates host v name source start)
    (o : Except RunFailure Signal × Machine) :
    (∃ limit, outcome v (run host .flat limit name source start) = some o) ↔
      ∃ limit, outcome v (run host .nested limit name source start) = some o := by
  cases told : emit host (.programStart source) start.cleared with
  | error failure m => simp only [run_of_refused told]
  | ok _ m =>
    have mirror := steps_mirror simulates (.begin told) (.begin told) rfl (.begin name source)
    simp only [run_of_told told]
    constructor
    · rintro ⟨limit, ended⟩
      obtain ⟨limit', -, mirrors⟩ := mirror limit
      exact ⟨limit', (verdict_mirrors view mirrors).symm.trans ended⟩
    · rintro ⟨limit, ended⟩
      obtain ⟨limit', le, mirrors⟩ := mirror limit
      obtain ⟨r, finished, -⟩ := Option.map_eq_some_iff.mp ended
      rw [steps_stay rfl (goesOn_of_verdict finished) le] at mirrors
      exact ⟨limit, (verdict_mirrors view mirrors).trans ended⟩

end Machine

end DeskCalculator
