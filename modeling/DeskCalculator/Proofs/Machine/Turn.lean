import DeskCalculator.Proofs.Machine.Execute

/-!
What a step does to the frames. It moves the innermost frame on, puts a callee in its place or in
front of it, or ends it together with the callers that a quit reaches. The callers themselves are
never touched.
-/

namespace DeskCalculator

namespace Frame

theorem unwound_okay (unwind : Int) (callers : List Frame) :
    unwound .okay unwind callers = (.okay, unwind, callers) := by
  cases callers <;> rfl

theorem unwound_suffix (signal : Signal) (unwind : Int) (callers : List Frame) :
    (unwound signal unwind callers).2.2 <:+ callers := by
  induction callers generalizing signal unwind with
  | nil => cases signal <;> exact List.suffix_refl _
  | cons caller callers ih =>
    cases signal with
    | okay => exact List.suffix_refl _
    | quit =>
      rw [unwound]
      split
      · exact (ih _ _).trans (List.suffix_cons _ _)
      · exact (ih _ _).trans (List.suffix_cons _ _)

/-- A quit stops among the frames in front of some others, or goes on to the others as the callers
of the outermost one in front. -/
theorem unwound_append (signal : Signal) (unwind : Int) (inner below : List Frame) :
    (∃ inner', inner' ≠ [] ∧ (unwound signal unwind (inner ++ below)).2.2 = inner' ++ below) ∨
      ∃ signal' unwind',
        unwound signal unwind (inner ++ below) = unwound signal' unwind' below := by
  induction inner generalizing signal unwind with
  | nil => exact .inr ⟨signal, unwind, rfl⟩
  | cons frame inner ih =>
    cases signal with
    | okay => exact .inl ⟨frame :: inner, List.cons_ne_nil _ _, rfl⟩
    | quit =>
      rw [List.cons_append, unwound]
      split
      · exact ih _ _
      · exact ih _ _

end Frame

/-- What a step may make of the frames, by what the instruction asks of them; the end of a text asks
nothing. -/
inductive Turn (calling : Calling) : List Frame → Option Move → List Frame → Prop where
  | leave {frame : Frame} {callers : List Frame} {move : Option Move} (signal : Signal)
      (unwind : Int) (leaves : move = none ∨ move = some .quit) :
      Turn calling (frame :: callers) move (Frame.unwound signal unwind callers).2.2
  | goOn {frame : Frame} {callers : List Frame} (cursor : Cursor) (position : Nat) (turned : Bool) :
      Turn calling (frame :: callers) (some (.goOn cursor turned))
        ({ frame with cursor, position, turned } :: callers)
  | call {frame : Frame} {callers : List Frame} (text : Text) (before : Cursor) (position : Nat) :
      Turn calling (frame :: callers) (some (.call text before.skipBlank))
        (({ frame with cursor := before.skipBlank, position, turned := false } : Frame).call
          calling text ++ callers)

namespace Machine

variable {host : Host} {calling : Calling} {m m' : Machine}

/-- What the instruction that a machine is about to execute asks of the frames, if it does not
fail. -/
def move? (host : Host) (m : Machine) : Option Move :=
  match m.frames with
  | [] => none
  | frame :: callers =>
    match frame.cursor.next? with
    | none => none
    | some (ch, cursor) =>
      match execute host [ch] cursor frame callers m with
      | .ok move _ => some move
      | .error _ _ => none

/-- Ends a run when no frame is left. -/
def over? (signal : Signal) (frames : List Frame) : Option Signal :=
  if frames.isEmpty then some signal else none

theorem leave_okay (callers : List Frame) (m : Machine) :
    leave .okay callers m = .ok (over? .okay callers) { m with frames := callers } := by
  simp only [leave, Frame.unwound_okay, over?]

theorem step_of_end {frame : Frame} {callers : List Frame} (frames : m.frames = frame :: callers)
    (ended : frame.cursor.peek? = none) :
    step host calling m = .ok (over? .okay callers) { m with frames := callers } := by
  simp only [step, frames, Cursor.next?, ended, Option.map_none, leave_okay]

theorem step_of_pending {frame : Frame} {callers : List Frame} {ch : CodePoint}
    (frames : m.frames = frame :: callers) (pending : frame.cursor.peek? = some ch) :
    step host calling m =
      (execute host [ch] (frame.cursor.advance 1) frame callers >>=
        follow calling (frame.begin (frame.cursor.advance 1)) callers) m := by
  simp only [step, frames, Cursor.next?, pending, Option.map_some]

/-- A step at an instruction that only asks for an action, and that nothing replaces, does what is
asked for. -/
theorem step_asking (host : Host) (calling : Calling) {frame : Frame} {callers : List Frame}
    {ch : CodePoint} {i : Instruction} {action : Action} (frames : m.frames = frame :: callers)
    (pending : frame.cursor.peek? = some ch) (unreplaced : m.overrides.find? [ch] = none)
    (called : Instruction.ofName [ch] = i) (unnamed : i.needsName = false)
    (asks : ∀ next turned s, i.perform next turned s = .ok { action } s) :
    let begun := frame.begin (frame.cursor.advance 1)
    ∃ journal, step host calling m =
      (act host [ch] ((frame.cursor.advance 1).peek?.map ([·])) begun callers action >>=
        follow calling begun callers) { m with journal, frames := begun :: callers } := by
  subst called
  obtain ⟨journal, executed⟩ :=
    execute_asking host unreplaced unnamed asks (frame.cursor.advance 1) frame callers
  refine ⟨journal, ?_⟩
  rw [step_of_pending frames pending, bind_apply, executed]
  rfl

theorem move?_of_end {frame : Frame} {callers : List Frame} (frames : m.frames = frame :: callers)
    (ended : frame.cursor.peek? = none) : m.move? host = none := by
  simp [move?, frames, Cursor.next?, ended]

theorem move?_of_execute {frame : Frame} {callers : List Frame} {ch : CodePoint} {move : Move}
    (frames : m.frames = frame :: callers) (pending : frame.cursor.peek? = some ch)
    (executed : execute host [ch] (frame.cursor.advance 1) frame callers m = .ok move m') :
    m.move? host = some move := by
  simp [move?, frames, Cursor.next?, pending, executed]

/-- A frame that leaves gives way to what a signal leaves of its callers. -/
theorem quit_leaves (frame : Frame) (callers : List Frame) (m : Machine) :
    ∃ signal m', quit frame callers m = leave signal callers m' := by
  unfold quit
  split
  · exact ⟨.quit, _, rfl⟩
  · exact ⟨.okay, _, rfl⟩

/-- Doing what an instruction asks of the frames never fails. -/
theorem follow_turn (calling : Calling) (frame : Frame) (cursor : Cursor) (callers : List Frame)
    {move : Move} (past : move.PastBlanks) (m : Machine) :
    ∃ signal m', follow calling (frame.begin cursor) callers move m = .ok signal m' ∧
      Turn calling (frame :: callers) (some move) m'.frames ∧
      (signal = none ↔ m'.frames ≠ []) := by
  cases move with
  | goOn cursor turned =>
    exact ⟨none, _, rfl, .goOn cursor frame.cursor.index turned, by simp⟩
  | call text cursor' =>
    obtain ⟨before, rfl⟩ := past
    refine ⟨none, _, rfl, .call text before frame.cursor.index, ?_⟩
    simp only [Frame.call]
    split <;> simp
  | quit =>
    obtain ⟨signal, m₁, left⟩ := quit_leaves (frame.begin cursor) callers m
    refine ⟨_, _, left, .leave signal m₁.store.unwind (.inr rfl), ?_⟩
    cases (Frame.unwound signal m₁.store.unwind callers).2.2 <;> simp

/-- A step that does not fail turns the frames, and the run is over when none is left. -/
theorem step_turn {signal : Option Signal} (running : m.frames ≠ [])
    (h : step host calling m = .ok signal m') :
    Turn calling m.frames (m.move? host) m'.frames ∧ (signal = none ↔ m'.frames ≠ []) := by
  obtain ⟨frame, callers, frames⟩ := List.exists_cons_of_ne_nil running
  cases pending : frame.cursor.peek? with
  | none =>
    rw [step_of_end frames pending] at h
    cases h
    rw [frames, move?_of_end frames pending]
    constructor
    · have left : Turn calling (frame :: callers) none _ := .leave .okay 0 (.inl rfl)
      rwa [Frame.unwound_okay] at left
    · cases callers <;> simp [over?]
  | some ch =>
    rw [step_of_pending frames pending] at h
    obtain ⟨move, m₁, executed, followed⟩ := bind_eq_ok.mp h
    have past := pastBlanks_execute _ _ _ m move m₁ executed
    obtain ⟨signal', m₂, followed', turn⟩ :=
      follow_turn calling frame (frame.cursor.advance 1) callers past m₁
    cases followed.symm.trans followed'
    rw [frames, move?_of_execute frames pending executed]
    exact turn

/-- A step that fails executes an instruction of the innermost frame. It has moved this frame on in
its text, and no other. -/
theorem step_fails {failure : Failure} (h : step host calling m = .error failure m') :
    ∃ frame callers ch cursor, m.frames = frame :: callers ∧ frame.cursor.peek? = some ch ∧
      execute host [ch] (frame.cursor.advance 1) frame callers m = .error failure m' ∧
      cursor.text = frame.cursor.text ∧
      m'.frames = { frame.begin (frame.cursor.advance 1) with cursor } :: callers := by
  cases frames : m.frames with
  | nil => simp [step, frames] at h
  | cons frame callers =>
    cases pending : frame.cursor.peek? with
    | none =>
      rw [step_of_end frames pending] at h
      cases h
    | some ch =>
      rw [step_of_pending frames pending, bind_apply] at h
      have moved := frames_execute host [ch] (frame.cursor.advance 1) frame callers m
      cases executed : execute host [ch] (frame.cursor.advance 1) frame callers m with
      | error failure' m₁ =>
        rw [executed] at h moved
        cases h
        obtain ⟨cursor, inText, moved⟩ := moved
        exact ⟨frame, callers, ch, cursor, rfl, pending, executed, inText, moved⟩
      | ok move m₁ =>
        rw [executed] at h
        have past := pastBlanks_execute _ _ _ m move m₁ executed
        obtain ⟨signal, m₂, followed, -⟩ :=
          follow_turn calling frame (frame.cursor.advance 1) callers past m₁
        cases h.symm.trans followed

end Machine

end DeskCalculator
