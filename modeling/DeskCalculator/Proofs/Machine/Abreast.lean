import Mathlib.Data.List.Forall2
import DeskCalculator.Proofs.Machine.Course
import DeskCalculator.Proofs.Machine.Joining
import DeskCalculator.Proofs.Machine.Quit

/-!
Two machines that go abreast. Their frames have the same left to execute, one by one, and their stores
stay the same as long as each instruction does the same to them. So they take the same number of
steps, and end alike.
-/

namespace DeskCalculator

/-- A failure of a run without the instruction that met it, the step and the places. -/
def RunFailure.unascribed : RunFailure → RunFailure
  | fault t => .fault { fault := { cause := t.fault.cause } }
  | breakdown b => .breakdown b

namespace Frame

/-- The same is left to execute and, if that is anything, it is executed alike. -/
structure Alike (f g : Frame) : Prop where
  rest : g.cursor.rest = f.cursor.rest
  turned : f.cursor.rest ≠ [] → g.turned = f.turned
  depth : f.cursor.rest ≠ [] → g.tailDepth = f.tailDepth

/-- A quit ends as many callers of the one as of the other. -/
theorem unwound_alike {R : Frame → Frame → Prop} {fs gs : List Frame} (alike : List.Forall₂ R fs gs)
    (signal : Signal) (unwind : Int) :
    (unwound signal unwind gs).1 = (unwound signal unwind fs).1 ∧
      (unwound signal unwind gs).2.1 = (unwound signal unwind fs).2.1 ∧
        List.Forall₂ R (unwound signal unwind fs).2.2 (unwound signal unwind gs).2.2 := by
  induction alike generalizing signal unwind with
  | nil => cases signal <;> exact ⟨rfl, rfl, .nil⟩
  | cons head tail ih =>
    cases signal with
    | okay => exact ⟨rfl, rfl, .cons head tail⟩
    | quit =>
      simp only [unwound]
      split
      · exact ih _ _
      · exact ⟨rfl, rfl, tail⟩

end Frame

namespace Machine

variable {lost : Failure → Prop} {same : Store → Store → Prop} {host : Host} {m n : Machine}
  {f g : Frame} {fs gs : List Frame}

/-- Steps of two machines that have come to the same; after a failure that is `lost` the second one
may have come to anything. -/
inductive Abreast (lost : Failure → Prop) (same : Store → Store → Prop) :
    EStateM.Result Failure Machine (Option Signal) →
    EStateM.Result Failure Machine (Option Signal) → Prop where
  | going {m n : Machine} (matching : Matching same m n)
      (alike : List.Forall₂ Frame.Alike m.frames n.frames) :
      Abreast lost same (.ok none m) (.ok none n)
  | ended (signal : Signal) {m n : Machine} (matching : Matching same m n) :
      Abreast lost same (.ok (some signal) m) (.ok (some signal) n)
  | failed (failure : Failure) {m n : Machine} (matching : Matching same m n) :
      Abreast lost same (.error failure m) (.error failure n)
  | lost {failure : Failure} {m : Machine} {r : EStateM.Result Failure Machine (Option Signal)}
      (dropped : lost failure) : Abreast lost same (.error failure m) r

/-- Ends of runs that have come to the same. -/
inductive Concur (lost : Failure → Prop) (same : Store → Store → Prop) :
    Option (Except RunFailure Signal × Machine) → Option (Except RunFailure Signal × Machine) →
    Prop where
  | going : Concur lost same none none
  | ended {result result' : Except RunFailure Signal} {m n : Machine}
      (results : result.mapError RunFailure.unascribed = result'.mapError RunFailure.unascribed)
      (matching : Matching same m n) : Concur lost same (some (result, m)) (some (result', n))
  | lost {failure : Failure} {t : Traceback} {m : Machine}
      {r : Option (Except RunFailure Signal × Machine)} (dropped : lost failure)
      (told : t.fault.cause = failure.told.cause) :
      Concur lost same (some (.error (.fault t), m)) r

section step
variable (sameness : Store.Sameness lost same)
include sameness

theorem leave_abreast (matching : Matching same m n) (alike : List.Forall₂ Frame.Alike fs gs)
    (signal : Signal) : Abreast lost same (leave signal fs m) (leave signal gs n) := by
  have levels := sameness.unwind_eq matching.store
  obtain ⟨signals, unwinds, left⟩ := Frame.unwound_alike alike signal m.store.unwind
  unfold leave
  rw [← levels]
  generalize Frame.unwound signal m.store.unwind fs = first at *
  generalize Frame.unwound signal m.store.unwind gs = second at *
  obtain ⟨ended, unwind, fs'⟩ := first
  obtain ⟨ended', unwind', gs'⟩ := second
  obtain rfl : ended' = ended := signals
  obtain rfl : unwind' = unwind := unwinds
  have matching' : Matching same { m with store := m.store.setUnwind unwind', frames := fs' }
      { n with store := n.store.setUnwind unwind', frames := gs' } :=
    { matching with store := sameness.withUnwind _ matching.store }
  cases left with
  | nil => exact .ended _ matching'
  | cons head tail => exact .going matching' (.cons head tail)

theorem quit_abreast (depth : g.tailDepth = f.tailDepth) (matching : Matching same m n)
    (alike : List.Forall₂ Frame.Alike fs gs) :
    Abreast lost same (quit f fs m) (quit g gs n) := by
  have levels := sameness.unwind_eq matching.store
  have spent : Matching same (m.setUnwind (m.store.unwind - f.tailDepth))
      (n.setUnwind (m.store.unwind - f.tailDepth)) :=
    { matching with store := sameness.withUnwind _ matching.store }
  unfold quit
  rw [← levels, depth]
  split
  · exact leave_abreast sameness spent alike .quit
  · exact leave_abreast sameness matching alike .okay

/-- Frames that are alike take what the instruction asks of them alike. -/
theorem follow_abreast {move move' : Move} (depth : g.tailDepth = f.tailDepth)
    (turned : g.turned = f.turned) (asked : Move.Joined [] move move')
    (matching : Matching same m n) (alike : List.Forall₂ Frame.Alike fs gs) :
    Abreast lost same (follow .flat f fs move m) (follow .flat g gs move' n) := by
  cases asked with
  | goOn joined =>
    have rests := Literal.joined_nil.mp joined
    exact .going { matching with } (.cons ⟨rests, fun _ => rfl, fun _ => depth⟩ alike)
  | @call text cursor cursor' behind =>
    have rests := Literal.joined_nil.mp behind.joined
    have ends : cursor'.atEnd = cursor.atEnd := congrArg List.isEmpty rests
    refine .going { matching with } ?_
    simp only [Frame.call, ends]
    split
    · exact .cons ⟨rfl, fun _ => turned, fun _ => congrArg (· + 1) depth⟩ alike
    · exact .cons ⟨rfl, fun _ => rfl, fun _ => rfl⟩
        (.cons ⟨rests, fun _ => turned, fun _ => depth⟩ alike)
  | quit => exact quit_abreast sameness depth matching alike

/-- Machines that are abreast stay so when their instruction does the same to their stores. -/
theorem step_abreast (obliging : host.Obliging) (matching : Matching same m n)
    (alike : List.Forall₂ Frame.Alike m.frames n.frames)
    (stable : ∀ ch, m.pending? = some ch → ∀ next turned,
      Stable lost same (Overrides.perform {} [ch] next turned)) :
    Abreast lost same (step host .flat m) (step host .flat n) := by
  generalize frames : m.frames = ms at alike
  generalize frames' : n.frames = ns at alike
  cases alike with
  | nil =>
    simp only [step, frames, frames']
    exact .ended .okay matching
  | @cons f g fs gs head tail =>
    cases rest : f.cursor.rest with
    | nil =>
      have ended : f.cursor.peek? = none := congrArg List.head? rest
      have ended' : g.cursor.peek? = none := congrArg List.head? (head.rest.trans rest)
      rw [step_of_end frames ended, step_of_end frames' ended', ← leave_okay, ← leave_okay]
      exact leave_abreast sameness matching tail .okay
    | cons ch t =>
      have pending : f.cursor.peek? = some ch := congrArg List.head? rest
      have pending' : g.cursor.peek? = some ch := congrArg List.head? (head.rest.trans rest)
      have left : f.cursor.rest ≠ [] := by simp [rest]
      have performs := stable ch ((pending?_of_frames frames).trans pending)
      have rests : g.cursor.rest = f.cursor.rest ++ [] := by rw [head.rest, List.append_nil]
      have executed := follows_execute sameness .nothing obliging fs gs rest rests (head.turned left)
        (fun _ => .inl rfl) (by rw [List.append_nil]; exact performs _ _) m n matching
      rw [step_of_pending frames pending, step_of_pending frames' pending', bind_apply, bind_apply]
      generalize execute host [ch] (f.cursor.advance 1) f fs m = first at executed
      generalize execute host [ch] (g.cursor.advance 1) g gs n = second at executed
      cases executed with
      | ok asked matching' => exact follow_abreast sameness (head.depth left) rfl asked matching' tail
      | error matching' => exact .failed _ matching'
      | lost dropped => exact .lost dropped

theorem steps_abreast (obliging : host.Obliging) (matching : Matching same m n)
    (alike : List.Forall₂ Frame.Alike m.frames n.frames)
    (stable : ∀ i m', steps host .flat i m = .ok none m' → ∀ ch, m'.pending? = some ch →
      ∀ next turned, Stable lost same (Overrides.perform {} [ch] next turned)) (limit : Nat) :
    Abreast lost same (steps host .flat limit m) (steps host .flat limit n) := by
  -- `stable` speaks of the machines that are reached from `m`, so it moves on with `m`.
  induction limit generalizing m n with
  | zero => exact .going matching alike
  | succ limit ih =>
    have stepped := step_abreast sameness obliging matching alike (stable 0 m rfl)
    simp only [steps]
    generalize first : step host .flat m = r at stepped
    generalize second : step host .flat n = r' at stepped
    cases stepped with
    | going matching' alike' =>
      refine ih matching' alike' fun i m' reached => stable (i + 1) m' ?_
      rw [steps_succ first, reached]
    | ended signal matching' => exact .ended signal matching'
    | failed failure matching' => exact .failed failure matching'
    | lost dropped => exact .lost dropped

end step

/-- A host that is told of something sees no difference. -/
theorem conclude_concur (obliging : host.Obliging) (event event' : Event)
    {result result' : Except RunFailure Signal}
    (results : result.mapError RunFailure.unascribed = result'.mapError RunFailure.unascribed)
    (matching : Matching same m n) :
    Concur lost same (some (conclude host event result m))
      (some (conclude host event' result' n)) := by
  obtain ⟨history, told, unseen⟩ := silent_emit obliging event m
  obtain ⟨history', told', unseen'⟩ := silent_emit obliging event' n
  simp only [conclude, told, told']
  have outputs : history.filter Effect.isOutput = history'.filter Effect.isOutput :=
    unseen.trans (matching.outputs.trans unseen'.symm)
  exact .ended results { matching with outputs }

theorem verdict_concur (obliging : host.Obliging)
    {r r' : EStateM.Result Failure Machine (Option Signal)} (abreast : Abreast lost same r r') :
    Concur lost same (verdict host r) (verdict host r') := by
  cases abreast with
  | going => exact .going
  | ended signal matching => exact conclude_concur obliging _ _ rfl matching
  | failed failure matching => exact conclude_concur obliging _ _ rfl { matching with }
  | @lost failure m _ dropped =>
    obtain ⟨history, told, -⟩ :=
      silent_emit obliging (.onError (m.traceback failure).fault) { m with frames := [] }
    simp only [verdict, conclude, told]
    exact .lost dropped rfl

end Machine

end DeskCalculator
