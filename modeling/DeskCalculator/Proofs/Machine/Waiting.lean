import DeskCalculator.Proofs.CallStack
import DeskCalculator.Proofs.Machine.Failing

/-!
What a waiting frame waits for. It stands at an instruction that has called a text with a frame of
its own, and that text is being evaluated.
-/

namespace DeskCalculator

/-- The instructions that call. -/
def callSigns : List CodePoint := [.scalar 'x', .scalar '<', .scalar '=', .scalar '>']

/-- Whether a move is a call. -/
def Move.isCall : Move → Bool
  | call _ _ => true
  | _ => false

/-- An instruction that asks for a call is one of those that call. -/
theorem Overrides.Asked.calls {ch : CodePoint} {next : Option Text} {action : Action}
    (h : Asked [ch] next action) (calls : action = .callRegister ∨ action = .callTop) :
    ch ∈ callSigns := by
  have listed := h.listed
  cases hi : Instruction.ofName [ch] with
  | compare r =>
    obtain rfl : ch = r.symbol := by cases r <;> exact Instruction.eq_of_sign? hi rfl
    cases r <;> decide
  | call =>
    obtain rfl := Instruction.eq_of_sign? hi rfl
    decide
  | bang =>
    rw [hi] at listed
    change action ∈ if next.any Instruction.isComparison then _ else _ at listed
    split at listed <;> obtain rfl | rfl := calls <;> simp at listed
  | _ =>
    rw [hi] at listed
    obtain rfl | rfl := calls <;> simp [Instruction.actions] at listed

/-- A turn that does not add a frame leaves the callers alone, or ends some of them. -/
theorem Turn.tail {calling : Calling} {frames frames' : List Frame} {move : Option Move}
    (turned : Turn calling frames move frames') (le : frames'.length ≤ frames.length) :
    frames'.tail <:+ frames.tail := by
  cases turned with
  | leave signal unwind =>
    exact (List.tail_suffix _).trans (Frame.unwound_suffix signal unwind _)
  | goOn => exact List.suffix_refl _
  | call text before position =>
    unfold Frame.call at le ⊢
    split
    · exact List.suffix_refl _
    · rename_i waits
      rw [if_neg waits] at le
      simp only [List.length_append, List.length_cons, List.length_nil] at le
      omega

namespace Machine

variable {host : Host} {name source : Text} {start m m' : Machine} {calls : List Nat}
  {f : Frame} {callers below : List Frame}

/-- An action that is no call asks for none. -/
theorem act_isCall {ch : CodePoint} {next : Option Text} {action : Action}
    (calls : action ≠ .callRegister ∧ action ≠ .callTop) :
    Answers (·.isCall = false) (act host [ch] next f callers action) := by
  cases action with
  | callRegister => exact absurd rfl calls.1
  | callTop => exact absurd rfl calls.2
  | proceed | skipName | quit | comment | negate => exact .pure rfl
  | numeral => exact .bind fun _ => .bind fun _ => .pure rfl
  | string => exact .bind fun _ => .pure rfl
  | command => exact .bind fun _ => .bind fun _ => .pure rfl
  | unknown =>
    intro m move m' h
    cases h

/-- Only an instruction that calls asks the frames for a call. -/
theorem execute_calls {ch : CodePoint} {cursor cursor' : Cursor} {text : Text}
    (builtIn : m.overrides = {})
    (executed : execute host [ch] cursor f callers m = .ok (.call text cursor') m') :
    ch ∈ callSigns := by
  obtain ⟨⟨⟩, m₁, entered, rest⟩ := bind_eq_ok.mp executed
  cases entered
  obtain ⟨action, m₂, performed, rest⟩ := bind_eq_ok.mp rest
  obtain ⟨⟨⟩, m₃, -, acted⟩ := bind_eq_ok.mp rest
  have asked := asked_perform (m := { m with frames := f.begin cursor :: callers }) builtIn performed
  by_cases calls : action = .callRegister ∨ action = .callTop
  · exact asked.calls calls
  · have stays := act_isCall (not_or.mp calls) _ _ _ acted
    cases stays

/-- A step that adds a frame executes an instruction that calls, and its frame waits there. -/
theorem step_calls (builtIn : m.overrides = {}) (frames : m.frames = f :: callers)
    (stepped : step host .flat m = .ok none m') (grows : m.frames.length < m'.frames.length) :
    ∃ ch text caller, f.cursor.peek? = some ch ∧ ch ∈ callSigns ∧
      caller.cursor.text = f.cursor.text ∧ caller.position = f.cursor.index ∧
      m'.frames = Frame.ofText Frame.macroName text :: caller :: callers := by
  rw [frames, List.length_cons] at grows
  cases pending : f.cursor.peek? with
  | none =>
    rw [step_of_end frames pending] at stepped
    obtain ⟨-, rfl⟩ := EStateM.Result.ok.inj stepped
    simp only at grows
    omega
  | some ch =>
    rw [step_of_pending frames pending] at stepped
    obtain ⟨move, m₁, executed, followed⟩ := bind_eq_ok.mp stepped
    cases move with
    | goOn =>
      cases followed
      simp at grows
    | quit =>
      obtain ⟨signal, m₂, left⟩ :=
        quit_leaves (f.begin (f.cursor.advance 1)) callers m₁
      obtain ⟨-, rfl⟩ := EStateM.Result.ok.inj (left.symm.trans followed)
      have fewer := (Frame.unwound_suffix signal m₂.store.unwind callers).length_le
      exact absurd (Nat.le_succ_of_le fewer) (Nat.not_le.mpr grows)
    | call text cursor =>
      cases followed
      have inText : cursor.text = f.cursor.text := staysIn_execute _ _ _ m _ m₁ executed
      unfold Frame.call at grows ⊢
      split
      · rename_i takes
        simp [takes] at grows
      · exact ⟨ch, text, _, rfl, execute_calls builtIn executed, inText, rfl, rfl⟩

/-- The frame `f` waits in front of `below`: its instruction has called a text, and this text is
evaluated since. -/
inductive Awaits (host : Host) (name source : Text) (start : Machine) (f : Frame)
    (below : List Frame) (m : Machine) : Prop where
  | intro {m₀ m₁ : Machine} {calls : List Nat} {caller : Frame} {ch : CodePoint} {text : Text}
      (underway : Underway host .flat name source start m₀ calls)
      (frames : m₀.frames = caller :: below)
      (inText : f.cursor.text = caller.cursor.text) (standing : f.position = caller.cursor.index)
      (pending : caller.cursor.peek? = some ch) (calls : ch ∈ callSigns)
      (stepped : step host .flat m₀ = .ok none m₁)
      (called : m₁.frames = Frame.ofText Frame.macroName text :: f :: below)
      (evaluating : Evaluating host .flat (f :: below) m₁ m) :
      Awaits host name source start f below m

theorem Awaits.step (h : Awaits host name source start f below m)
    (stepped : step host .flat m = .ok none m') (inside : (f :: below).length < m'.frames.length) :
    Awaits host name source start f below m' := by
  obtain ⟨underway, frames, inText, standing, pending, calls, called, entered, evaluating⟩ := h
  exact ⟨underway, frames, inText, standing, pending, calls, called, entered,
    evaluating.step stepped inside⟩

/-- Every frame but the innermost waits. -/
theorem underway_awaits (builtIn : start.overrides = {})
    (h : Underway host .flat name source start m calls) :
    ∀ f below, f :: below <:+ m.frames.tail → Awaits host name source start f below m := by
  induction h with
  | begin =>
    intro f below suffix
    simp at suffix
  | @step m m' calls underway stepped ih =>
    intro f below suffix
    have inside : (f :: below).length < m'.frames.length := by
      have le := suffix.length_le
      simp only [List.length_cons, List.length_tail] at le ⊢
      omega
    obtain ⟨frame, callers, frames⟩ := List.exists_cons_of_ne_nil underway.running
    by_cases grows : m.frames.length < m'.frames.length
    · obtain ⟨ch, text, caller, pending, calls, inText, standing, called⟩ :=
        step_calls (underway.overrides.trans builtIn) frames stepped grows
      rw [called, List.tail_cons] at suffix
      obtain same | further := List.suffix_cons_iff.mp suffix
      · obtain ⟨rfl, rfl⟩ := List.cons.inj same
        exact ⟨underway, frames, inText, standing, pending, calls, stepped, called, .begin⟩
      · refine (ih f below ?_).step stepped inside
        rw [frames]
        exact further
    · have kept := (step_turn underway.running stepped).1.tail (Nat.not_lt.mp grows)
      exact (ih f below (suffix.trans kept)).step stepped inside

end Machine

end DeskCalculator
