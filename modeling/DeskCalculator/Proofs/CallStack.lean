import DeskCalculator.Proofs.Cursor
import DeskCalculator.Proofs.Machine.Course

/-!
The discipline of the frames. Every frame that waits for its callee has an instruction left to
execute, and the tail depths account for the calls in progress, so the frames grow only where there
is something to come back to.
-/

namespace DeskCalculator

/-- A frame that waits stands inside its text, at an instruction. -/
def Frame.Waits (f : Frame) : Prop :=
  ∃ ch, f.cursor.text[f.cursor.index]? = some ch ∧ ch ≠ .scalar '#' ∧ Literal.isBlank ch = false

/-- The tail depths of frames, added up. -/
def totalDepth : List Frame → Nat
  | [] => 0
  | frame :: callers => frame.tailDepth + totalDepth callers

/-- Each frame has had as many texts as calls in progress are executed by it, the outermost one more
for the program. -/
def Accounted (calls : List Nat) : List Frame → Prop
  | [] => True
  | frame :: callers =>
    frame.tailDepth = calls.count (callers.length + 1) + (if callers.isEmpty then 1 else 0) ∧
      Accounted calls callers

theorem Accounted.congr {calls calls' : List Nat} {frames : List Frame}
    (h : Accounted calls frames)
    (same : ∀ height ≤ frames.length, calls'.count height = calls.count height) :
    Accounted calls' frames := by
  induction frames with
  | nil => trivial
  | cons frame callers ih =>
    obtain ⟨counted, rest⟩ := h
    refine ⟨?_, ih rest fun height le => same height (by simp only [List.length_cons]; omega)⟩
    rw [counted, same (callers.length + 1) (Nat.le_refl _)]

theorem Accounted.of_append {calls : List Nat} {inner below : List Frame}
    (h : Accounted calls (inner ++ below)) : Accounted calls below := by
  induction inner with
  | nil => exact h
  | cons frame inner ih => exact ih h.2

theorem countP_le_succ (calls : List Nat) (n : Nat) :
    calls.countP (· ≤ n + 1) = calls.countP (· ≤ n) + calls.count (n + 1) := by
  induction calls with
  | nil => rfl
  | cons call calls ih =>
    simp only [List.countP_cons, List.count_cons, ih, decide_eq_true_eq, beq_iff_eq]
    split <;> split <;> split <;> omega

theorem Accounted.totalDepth {calls : List Nat} {frames : List Frame} (h : Accounted calls frames)
    (positive : ∀ call ∈ calls, 0 < call) :
    totalDepth frames =
      calls.countP (· ≤ frames.length) + (if frames.isEmpty then 0 else 1) := by
  induction frames with
  | nil =>
    have none : calls.countP (· ≤ 0) = 0 := by
      rw [List.countP_eq_zero]
      intro call mem
      have := positive call mem
      simp only [decide_eq_true_eq]
      omega
    simp only [List.length_nil, none]
    rfl
  | cons frame callers ih =>
    obtain ⟨counted, rest⟩ := h
    rw [DeskCalculator.totalDepth, ih rest, List.length_cons, countP_le_succ, counted]
    cases callers with
    | nil =>
      simp only [List.isEmpty_nil, List.isEmpty_cons, Bool.false_eq_true, if_true, if_false]
      omega
    | cons =>
      simp only [List.isEmpty_cons, Bool.false_eq_true, if_false]
      omega

/-- What holds of the frames of a program called `name` while `calls` are in progress. -/
structure Disciplined (name : Text) (calls : List Nat) (frames : List Frame) : Prop where
  names : frames.map (·.name) = List.replicate (frames.length - 1) Frame.macroName ++ [name]
  waiting : ∀ f ∈ frames.tail, f.Waits
  deep : ∀ f ∈ frames, 1 ≤ f.tailDepth
  accounted : Accounted calls frames
  heights : ∀ call ∈ calls, 0 < call ∧ call ≤ frames.length

namespace Disciplined

variable {name : Text} {calls : List Nat} {frames frames' : List Frame} {frame frame' : Frame}
  {callers : List Frame}

theorem ne_nil (h : Disciplined name calls frames) : frames ≠ [] := by
  rintro rfl
  simpa using h.names

/-- The tail depths add up to the program and the calls in progress. -/
theorem depth (h : Disciplined name calls frames) : totalDepth frames = 1 + calls.length := by
  have all : calls.countP (· ≤ frames.length) = calls.length := by
    rw [List.countP_eq_length]
    intro call mem
    simpa using (h.heights call mem).2
  rw [h.accounted.totalDepth fun call mem => (h.heights call mem).1, all]
  simp [h.ne_nil]
  omega

theorem begin (name text : Text) : Disciplined name [] [Frame.ofText name text] where
  names := rfl
  waiting := by simp
  deep := by simp [Frame.ofText]
  accounted := ⟨rfl, trivial⟩
  heights := by simp

/-- The innermost frame may move on in its text. -/
theorem goOn (h : Disciplined name calls (frame :: callers)) (named : frame'.name = frame.name)
    (deep : frame'.tailDepth = frame.tailDepth) : Disciplined name calls (frame' :: callers) where
  names := by
    rw [List.map_cons, named]
    exact h.names
  waiting := h.waiting
  deep := by simpa [deep] using h.deep
  accounted := by
    obtain ⟨counted, rest⟩ := h.accounted
    exact ⟨deep.trans counted, rest⟩
  heights := h.heights

/-- The innermost frame may take a further text. -/
theorem takeOver (h : Disciplined name calls (frame :: callers)) (named : frame'.name = frame.name)
    (deeper : frame'.tailDepth = frame.tailDepth + 1) :
    Disciplined name ((callers.length + 1) :: calls) (frame' :: callers) where
  names := by
    rw [List.map_cons, named]
    exact h.names
  waiting := h.waiting
  deep := by
    have deep := h.deep
    simp only [List.forall_mem_cons] at deep ⊢
    exact ⟨by omega, deep.2⟩
  accounted := by
    obtain ⟨counted, rest⟩ := h.accounted
    refine ⟨?_, rest.congr fun height le => ?_⟩
    · rw [List.count_cons_self, deeper, counted]
      omega
    · have lower : callers.length + 1 ≠ height := by omega
      rw [List.count_cons_of_ne lower]
  heights := by
    have heights := h.heights
    simp only [List.forall_mem_cons, List.length_cons] at heights ⊢
    exact ⟨by omega, heights⟩

/-- A frame that has an instruction left may wait for a callee with a frame of its own. -/
theorem nest (h : Disciplined name calls (frame :: callers)) (waits : frame.Waits) (text : Text) :
    Disciplined name ((callers.length + 2) :: calls)
      (Frame.ofText Frame.macroName text :: frame :: callers) where
  names := by
    rw [List.map_cons, h.names]
    rfl
  waiting := by
    have waiting := h.waiting
    simp only [List.tail_cons, List.forall_mem_cons] at waiting ⊢
    exact ⟨waits, waiting⟩
  deep := by
    have deep := h.deep
    simp only [List.forall_mem_cons] at deep ⊢
    exact ⟨Nat.le_refl _, deep⟩
  accounted := by
    have fresh : calls.count (callers.length + 2) = 0 := by
      rw [List.count_eq_zero]
      intro mem
      have := (h.heights _ mem).2
      simp only [List.length_cons] at this
      omega
    refine ⟨?_, h.accounted.congr fun height le => ?_⟩
    · simp [fresh, Frame.ofText]
    · have lower : callers.length + 2 ≠ height := by
        simp only [List.length_cons] at le
        omega
      rw [List.count_cons_of_ne lower]
  heights := by
    have heights := h.heights
    simp only [List.forall_mem_cons, List.length_cons] at heights ⊢
    exact ⟨by omega, fun call mem => ⟨(heights call mem).1, by have := heights call mem; omega⟩⟩

/-- Frames that are left keep the calls that are theirs. -/
theorem suffix (h : Disciplined name calls frames) (left : frames' <:+ frames)
    (running : frames' ≠ []) : Disciplined name (calls.filter (· ≤ frames'.length)) frames' := by
  obtain ⟨inner, rfl⟩ := left
  have tail : ∀ f ∈ frames'.tail, f ∈ (inner ++ frames').tail := by
    intro f mem
    cases inner with
    | nil => exact mem
    | cons => exact List.mem_append_right _ (List.mem_of_mem_tail mem)
  exact {
    names := by
      have names := congrArg (List.drop inner.length) h.names
      have one : 0 < frames'.length := List.length_pos_iff.mpr running
      have rest : (inner ++ frames').length - 1 = inner.length + (frames'.length - 1) := by
        rw [List.length_append]
        omega
      rw [List.map_append, List.drop_left' (List.length_map _), rest,
        ← List.replicate_append_replicate, List.append_assoc,
        List.drop_left' List.length_replicate] at names
      exact names
    waiting := fun f mem => h.waiting f (tail f mem)
    deep := fun f mem => h.deep f (List.mem_append_right _ mem)
    accounted := by
      refine h.accounted.of_append.congr fun height le => ?_
      exact List.count_filter (by simpa using le)
    heights := by
      intro call mem
      obtain ⟨mem, le⟩ := List.mem_filter.mp mem
      exact ⟨(h.heights call mem).1, by simpa using le⟩ }

/-- No call ends unless a frame does. -/
theorem filter_heights (h : Disciplined name calls frames) {height : Nat}
    (le : frames.length ≤ height) : calls.filter (· ≤ height) = calls := by
  rw [List.filter_eq_self]
  intro call mem
  have := (h.heights call mem).2
  simp only [decide_eq_true_eq]
  omega

theorem turn {move : Option Move} (h : Disciplined name calls frames)
    (turned : Turn .flat frames move frames') (running : frames' ≠ []) :
    Disciplined name (inProgress move frames'.length calls) frames' := by
  cases turned with
  | @leave frame callers move signal unwind leaves =>
    have left := h.suffix ((Frame.unwound_suffix signal unwind callers).trans
      (List.suffix_cons frame callers)) running
    obtain rfl | rfl := leaves
    · exact left
    · exact left
  | @goOn frame callers cursor position turned =>
    simp only [inProgress]
    rw [h.filter_heights (by simp)]
    exact h.goOn rfl rfl
  | @call frame callers text before position =>
    simp only [inProgress]
    by_cases ended : before.skipBlank.atEnd
    · rw [Frame.call, if_pos ⟨rfl, ended⟩, h.filter_heights (by simp)]
      exact h.takeOver rfl rfl
    · rw [Frame.call, if_neg fun takes => ended takes.2, h.filter_heights (by simp)]
      obtain ⟨ch, found⟩ := Cursor.peek?_of_not_atEnd ended
      let caller : Frame := { frame with cursor := before.skipBlank, position, turned := false }
      have waits : caller.Waits :=
        ⟨ch, (Cursor.peek?_eq _).symm.trans found, Cursor.peek?_skipBlank found⟩
      have moved : Disciplined name calls (caller :: callers) := h.goOn rfl rfl
      exact moved.nest waits text

end Disciplined

/-- A turn of frames in front of some others leaves the others as they are, until the last of those
in front has ended. -/
theorem Turn.above {calling : Calling} {inner below frames' : List Frame} {move : Option Move}
    (turned : Turn calling (inner ++ below) move frames') (inside : inner ≠ []) :
    (∃ inner', inner' ≠ [] ∧ frames' = inner' ++ below) ∨
      ∃ signal unwind, frames' = (Frame.unwound signal unwind below).2.2 := by
  obtain ⟨frame, inner, rfl⟩ := List.exists_cons_of_ne_nil inside
  rw [List.cons_append] at turned
  cases turned with
  | leave signal unwind =>
    obtain ⟨inner', some, stopped⟩ | ⟨signal', unwind', ended⟩ :=
      Frame.unwound_append signal unwind inner below
    · exact .inl ⟨inner', some, stopped⟩
    · exact .inr ⟨signal', unwind', by rw [ended]⟩
  | goOn => exact .inl ⟨_ :: inner, List.cons_ne_nil _ _, rfl⟩
  | call text before position =>
    refine .inl ⟨Frame.call calling text _ ++ inner, ?_, (List.append_assoc _ _ _).symm⟩
    rw [Frame.call]
    split <;> simp

namespace Machine

/-- The machines that the evaluation of a text in front of `below` passes through, from `m` on. -/
inductive Evaluating (host : Host) (calling : Calling) (below : List Frame) (m : Machine) :
    Machine → Prop where
  | begin : Evaluating host calling below m m
  | step {m₁ m₂ : Machine} : Evaluating host calling below m m₁ →
      step host calling m₁ = .ok none m₂ → below.length < m₂.frames.length →
      Evaluating host calling below m m₂

variable {host : Host} {name source : Text} {start m m₁ m₂ : Machine} {calls : List Nat}
  {below : List Frame}

theorem step_above {calling : Calling} {inner : List Frame} {signal : Option Signal}
    (frames : m₁.frames = inner ++ below) (inside : inner ≠ [])
    (stepped : step host calling m₁ = .ok signal m₂) :
    (∃ inner', inner' ≠ [] ∧ m₂.frames = inner' ++ below) ∨
      ∃ ended unwind, m₂.frames = (Frame.unwound ended unwind below).2.2 := by
  have running : m₁.frames ≠ [] := by simp [frames, inside]
  have turned := (step_turn running stepped).1
  rw [frames] at turned
  exact turned.above inside

theorem evaluating_above {calling : Calling} {frame : Frame} (frames : m.frames = frame :: below)
    (h : Evaluating host calling below m m₁) :
    ∃ inner, inner ≠ [] ∧ m₁.frames = inner ++ below := by
  induction h with
  | begin => exact ⟨[frame], List.cons_ne_nil _ _, frames⟩
  | @step m₁ m₂ _ stepped higher ih =>
    obtain ⟨inner, inside, frames⟩ := ih
    obtain stays | ⟨ended, unwind, left⟩ := step_above frames inside stepped
    · exact stays
    · have := (Frame.unwound_suffix ended unwind below).length_le
      rw [left] at higher
      omega

theorem underway_disciplined (h : Underway host .flat name source start m calls) :
    Disciplined name calls m.frames := by
  induction h with
  | begin => exact .begin name source
  | step underway stepped ih =>
    obtain ⟨turned, ends⟩ := step_turn underway.running stepped
    exact ih.turn turned (ends.mp rfl)

theorem failed_disciplined {failure : Failure}
    (h : Underway host .flat name source start m calls)
    (failed : step host .flat m = .error failure m₁) : Disciplined name calls m₁.frames := by
  obtain ⟨frame, callers, -, cursor, frames, -, -, -, moved⟩ := step_fails failed
  have disciplined := underway_disciplined h
  rw [frames] at disciplined
  rw [moved]
  exact disciplined.goOn rfl rfl

/-- The frames grow only by a call whose caller waits. -/
theorem step_grows {signal : Option Signal} (h : Underway host .flat name source start m calls)
    (stepped : step host .flat m = .ok signal m₁) :
    m₁.frames.length ≤ m.frames.length ∨
      ∃ text caller, m.move? host = some (.call text caller.cursor) ∧ caller.Waits ∧
        m₁.frames = .ofText Frame.macroName text :: caller :: m.frames.tail := by
  obtain ⟨turned, -⟩ := step_turn h.running stepped
  by_cases none : m₁.frames = []
  · exact .inl (by simp [none])
  · have waiting := ((underway_disciplined h).turn turned none).waiting
    generalize m.move? host = move at turned waiting ⊢
    generalize m.frames = frames at turned ⊢
    generalize m₁.frames = frames' at turned waiting ⊢
    cases turned with
    | @leave frame callers move signal unwind =>
      have fewer := (Frame.unwound_suffix signal unwind callers).length_le
      exact .inl (by simp only [List.length_cons]; omega)
    | goOn => exact .inl (Nat.le_refl _)
    | @call frame callers text before position =>
      unfold Frame.call at waiting ⊢
      split
      · exact .inl (Nat.le_refl _)
      · rename_i waits
        rw [if_neg waits] at waiting
        exact .inr ⟨text, _, rfl, waiting _ List.mem_cons_self, rfl⟩

/-- The evaluation of a text ends with the frames below as they were. -/
theorem evaluating_returns {calling : Calling} {frame : Frame} {signal : Option Signal}
    (frames : m.frames = frame :: below) (evaluating : Evaluating host calling below m m₁)
    (stepped : step host calling m₁ = .ok signal m₂) (left : m₂.frames.length ≤ below.length) :
    m₂.frames = below ∨ ∃ unwind, m₂.frames = (Frame.unwound .quit unwind below).2.2 := by
  obtain ⟨inner, inside, above⟩ := evaluating_above frames evaluating
  obtain ⟨inner', inside', stays⟩ | ⟨ended, unwind, returned⟩ := step_above above inside stepped
  · have some : inner'.length ≠ 0 := by simpa using inside'
    rw [stays, List.length_append] at left
    omega
  · cases ended with
    | okay => exact .inl (by rw [returned, Frame.unwound_okay])
    | quit => exact .inr ⟨unwind, returned⟩

/-- The frames of a run are disciplined at every moment, and when a step has failed. They grow only
by a call whose caller waits. While a text is evaluated the frames below stay as they were, and they
are what its end returns to: with them a caller goes on, or a quit ends some more of them. -/
theorem frames_disciplined (h : Underway host .flat name source start m calls) :
    Disciplined name calls m.frames ∧
      totalDepth m.frames = 1 + calls.length ∧
      (∀ failure m', step host .flat m = .error failure m' → Disciplined name calls m'.frames) ∧
      (∀ signal m', step host .flat m = .ok signal m' → m'.frames.length ≤ m.frames.length ∨
        ∃ text caller, m.move? host = some (.call text caller.cursor) ∧ caller.Waits ∧
          m'.frames = .ofText Frame.macroName text :: caller :: m.frames.tail) ∧
      ∀ frame below m₁, m.frames = frame :: below → Evaluating host .flat below m m₁ →
        (∃ inner, inner ≠ [] ∧ m₁.frames = inner ++ below) ∧
          ∀ signal m₂, step host .flat m₁ = .ok signal m₂ → m₂.frames.length ≤ below.length →
            m₂.frames = below ∨ ∃ unwind, m₂.frames = (Frame.unwound .quit unwind below).2.2 := by
  have disciplined := underway_disciplined h
  refine ⟨disciplined, disciplined.depth, ?_, ?_, ?_⟩
  · intro failure m' failed
    exact failed_disciplined h failed
  · intro signal m' stepped
    exact step_grows h stepped
  · intro frame below m₁ frames evaluating
    refine ⟨evaluating_above frames evaluating, ?_⟩
    intro signal m₂ stepped left
    exact evaluating_returns frames evaluating stepped left

/-- The frames of `[2p]x 3p` in its macro. -/
theorem frames_disciplined_in_macro :
    ∃ m calls, Underway {} .flat [] (Text.ofString "[2p]x 3p") {} m calls ∧ calls = [2] ∧
      Disciplined [] calls m.frames ∧ totalDepth m.frames = 1 + calls.length := by
  have begun : Underway {} .flat [] (Text.ofString "[2p]x 3p") {} _ _ := .begin rfl
  have called := (begun.step rfl).step rfl
  have disciplined := frames_disciplined called
  exact ⟨_, _, called, rfl, disciplined.1, disciplined.2.1⟩

end Machine

end DeskCalculator
