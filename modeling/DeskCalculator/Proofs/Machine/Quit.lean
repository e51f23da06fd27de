import DeskCalculator.Proofs.Machine.Turn

/-!
What a quit does to the frames. It ends the frame that quits; when there are levels left beyond those
of that frame, it ends one caller more than that many. An instruction that does not quit goes on as
if the levels left were any other number.
-/

namespace DeskCalculator

namespace Frame

/-- A quit that reaches a caller ends it, and one more for each of the `k` levels left. -/
theorem unwound_quit (k : Nat) (callers : List Frame) :
    unwound .quit k callers =
      (if callers.length ≤ k then .quit else .okay, ((k - callers.length : Nat) : Int),
        callers.drop (k + 1)) := by
  induction callers generalizing k with
  | nil => simp [unwound]
  | cons caller callers ih =>
    cases k with
    | zero => simp [unwound]
    | succ k =>
      have going : (0 : Int) < (k + 1 : Nat) := by omega
      have one : ((k + 1 : Nat) : Int) - 1 = k := by omega
      rw [unwound, if_pos going, one, ih k]
      simp

end Frame

namespace Machine

variable {host : Host} {calling : Calling} {m : Machine}

/-- The instruction that a machine is about to execute. -/
def pending? (m : Machine) : Option CodePoint :=
  (m.frames.head?.map (·.cursor)).bind Cursor.peek?

/-- How many levels the instruction that a machine is about to execute ends, if it is a quit that
succeeds. -/
def quits? (m : Machine) : Option Int :=
  m.pending?.bind fun ch => (Instruction.ofName [ch]).levels? m.store

theorem pending?_of_frames {frame : Frame} {callers : List Frame}
    (frames : m.frames = frame :: callers) : m.pending? = frame.cursor.peek? := by
  simp [pending?, frames]

theorem quits?_of_pending {frame : Frame} {callers : List Frame} {ch : CodePoint}
    (frames : m.frames = frame :: callers) (pending : frame.cursor.peek? = some ch) :
    m.quits? = (Instruction.ofName [ch]).levels? m.store := by
  simp [quits?, pending?, frames, pending]

/-- A machine that quits stands at an instruction of its innermost frame. -/
theorem exists_of_quits {n : Int} (h : m.quits? = some n) :
    ∃ frame callers ch, m.frames = frame :: callers ∧ frame.cursor.peek? = some ch ∧
      (Instruction.ofName [ch]).levels? m.store = some n := by
  obtain ⟨ch, pending, levels⟩ := Option.bind_eq_some_iff.mp h
  cases frames : m.frames with
  | nil => simp [pending?, frames] at pending
  | cons frame callers =>
    exact ⟨frame, callers, ch, rfl, (pending?_of_frames frames).symm.trans pending, levels⟩

theorem quits?_pos {n : Int} (h : m.quits? = some n) : 0 < n := by
  obtain ⟨_, _, _, _, _, levels⟩ := exists_of_quits h
  exact Instruction.levels?_pos levels

theorem quits?_of_unquitting (q : m.pending? ≠ some (.scalar 'q'))
    (Q : m.pending? ≠ some (.scalar 'Q')) : m.quits? = none := by
  cases quits : m.quits? with
  | none => rfl
  | some n =>
    obtain ⟨frame, callers, ch, frames, pending, levels⟩ := exists_of_quits quits
    rw [pending?_of_frames frames, pending] at q Q
    obtain rfl | rfl := Instruction.quit_of_levels? levels
    · exact absurd rfl q
    · exact absurd rfl Q

/-- A quit for fewer levels than the frame has ends that frame alone. -/
theorem quit_within {frame : Frame} {callers : List Frame}
    (h : m.store.unwind < frame.tailDepth) :
    quit frame callers m =
      .ok (over? .okay callers) { m with frames := callers } := by
  simp only [quit, if_neg (Int.not_le.mpr h), leave_okay]

/-- A quit for `k` levels beyond those of the frame ends `k + 1` callers, as far as there are. -/
theorem quit_beyond {frame : Frame} {callers : List Frame} {k : Nat}
    (h : m.store.unwind = frame.tailDepth + k) :
    quit frame callers m =
      .ok (over? (if callers.length ≤ k then .quit else .okay) (callers.drop (k + 1)))
        { m with
          store := m.store.setUnwind (k - callers.length : Nat)
          frames := callers.drop (k + 1) } := by
  have reaches : (frame.tailDepth : Int) ≤ m.store.unwind := by omega
  have left : m.store.unwind - frame.tailDepth = k := by omega
  simp only [quit, if_pos reaches, leave, left, Frame.unwound_quit]
  rfl

/-- A machine that has dispatched its quit for `n` levels: the quit has taken its number and is
recorded. -/
def quitting (n : Int) (m : Machine) : Machine :=
  let name := m.pending?.toList
  let stack := (Instruction.ofName name).unpaid m.store.stack
  let position := ((m.frames.head?.map (·.cursor)).map (·.index)).getD 0
  { m with
    store := { m.store with stack, unwind := n - 1 }
    journal := m.journal.record m.frames.length name position .quit stack.length }

theorem execute_quits {frame : Frame} {callers : List Frame} {ch : CodePoint} {n : Int}
    (builtIn : m.overrides = {}) (frames : m.frames = frame :: callers)
    (pending : frame.cursor.peek? = some ch)
    (h : (Instruction.ofName [ch]).levels? m.store = some n) (cursor : Cursor) :
    execute host [ch] cursor frame callers m =
      .ok .quit { m.quitting n with frames := frame.begin cursor :: callers } := by
  obtain ⟨store, overrides, journal, history, fs⟩ := m
  obtain rfl : overrides = {} := builtIn
  obtain rfl : fs = frame :: callers := frames
  simp only [quitting, pending?, List.head?_cons, Option.map_some, Option.bind_some, pending]
  simp only [execute, perform, respond, bind_apply, setFrames, update, onStore,
    Overrides.builtIn_levels h]
  rfl

/-- A machine that quits executes nothing but its quit. -/
theorem step_quits {frame : Frame} {callers : List Frame} {n : Int} (builtIn : m.overrides = {})
    (frames : m.frames = frame :: callers) (quits : m.quits? = some n) :
    let begun := frame.begin (frame.cursor.advance 1)
    step host calling m = quit begun callers { m.quitting n with frames := begun :: callers } := by
  obtain ⟨frame', callers', ch, frames', pending, levels⟩ := exists_of_quits quits
  cases frames.symm.trans frames'
  rw [step_of_pending frames pending, bind_apply, execute_quits builtIn frames pending levels]
  rfl

/-- A quit for no more levels than the frame has ends that frame alone. -/
theorem step_quits_within {frame : Frame} {callers : List Frame} {n : Int}
    (builtIn : m.overrides = {}) (frames : m.frames = frame :: callers) (quits : m.quits? = some n)
    (within : n - 1 < frame.tailDepth) :
    step host calling m = .ok (over? .okay callers) { m.quitting n with frames := callers } := by
  rw [step_quits builtIn frames quits]
  exact quit_within within

/-- A quit for `k + 1` levels beyond those of the frame ends `k + 1` callers, as far as there
are. -/
theorem step_quits_beyond {frame : Frame} {callers : List Frame} {n : Int} {k : Nat}
    (builtIn : m.overrides = {}) (frames : m.frames = frame :: callers) (quits : m.quits? = some n)
    (beyond : n - 1 = frame.tailDepth + k) :
    step host calling m =
      .ok (over? (if callers.length ≤ k then .quit else .okay) (callers.drop (k + 1)))
        { m.quitting n with
          store := (m.quitting n).store.setUnwind (k - callers.length : Nat)
          frames := callers.drop (k + 1) } := by
  rw [step_quits builtIn frames quits]
  exact quit_beyond beyond

theorem act_ne_quit {name : Text} {next : Option Text} (frame : Frame) (callers : List Frame)
    {action : Action} (h : action ≠ .quit) :
    Answers (· ≠ .quit) (act host name next frame callers action) := by
  have invoked (cursor : Cursor) (v : Value) : Answers (· ≠ .quit) (invoke cursor v) := by
    cases v with
    | text t => exact .pure (by simp)
    | int | float => exact .bind fun _ => .pure (by simp)
  cases action with
  | quit => exact absurd rfl h
  | proceed | skipName | comment | negate => exact .pure (by simp)
  | callRegister => exact .bind fun _ => invoked _ _
  | callTop => exact .bind fun _ => invoked _ _
  | numeral => exact .bind fun _ => .bind fun _ => .pure (by simp)
  | string => exact .bind fun _ => .pure (by simp)
  | command => exact .bind fun _ => .bind fun _ => .pure (by simp)
  | unknown =>
    intro m move m' hm
    cases hm

theorem perform_ne_quit {name : Text} {next : Option Text} {turned : Bool} {m' : Machine}
    {action : Action} (builtIn : m.overrides = {})
    (h : (Instruction.ofName name).levels? m.store = none)
    (hp : perform host name next turned m = .ok action m') : action ≠ .quit := by
  obtain ⟨response, m₁, responded, rest⟩ := bind_eq_ok.mp hp
  obtain ⟨-, m₂, -, answered⟩ := bind_eq_ok.mp rest
  cases answered
  simp only [respond, onStore, builtIn] at responded
  cases hr : Overrides.perform {} name next turned m.store with
  | error failure s => simp [hr] at responded
  | ok response' s =>
    rw [hr] at responded
    cases responded
    exact Overrides.builtIn_action_ne_quit h hr

/-- Only a quit asks the frames to quit. -/
theorem execute_ne_quit {name : Text} {cursor : Cursor} {frame : Frame} {callers : List Frame}
    {m' : Machine} {move : Move} (builtIn : m.overrides = {})
    (h : (Instruction.ofName name).levels? m.store = none)
    (hm : execute host name cursor frame callers m = .ok move m') : move ≠ .quit := by
  obtain ⟨⟨⟩, m₁, begun, rest⟩ := bind_eq_ok.mp hm
  cases begun
  obtain ⟨action, m₂, performed, rest⟩ := bind_eq_ok.mp rest
  obtain ⟨-, m₃, -, acted⟩ := bind_eq_ok.mp rest
  have asked : action ≠ .quit :=
    perform_ne_quit (m := { m with frames := frame.begin cursor :: callers }) builtIn h performed
  exact act_ne_quit _ _ asked _ _ _ acted

/-- A step that does not quit executes an instruction and does what it asks of the frames; the run
goes on. -/
theorem step_quitless {frame : Frame} {callers : List Frame} {ch : CodePoint} {m' : Machine}
    {signal : Option Signal} (builtIn : m.overrides = {}) (quitless : m.quits? = none)
    (frames : m.frames = frame :: callers) (pending : frame.cursor.peek? = some ch)
    (stepped : step host calling m = .ok signal m') :
    signal = none ∧ ∃ move m₁,
      execute host [ch] (frame.cursor.advance 1) frame callers m = .ok move m₁ ∧ move ≠ .quit ∧
        follow calling (frame.begin (frame.cursor.advance 1)) callers move m₁ = .ok none m' := by
  rw [step_of_pending frames pending] at stepped
  obtain ⟨move, m₁, executed, followed⟩ := bind_eq_ok.mp stepped
  have levels := (quits?_of_pending frames pending).symm.trans quitless
  have moves := execute_ne_quit builtIn levels executed
  have goes : signal = none := by
    cases move with
    | quit => exact absurd rfl moves
    | goOn | call =>
      cases followed
      rfl
  exact ⟨goes, move, m₁, executed, moves, goes ▸ followed⟩

/-- How the last step of a run ends it: the outermost text has ended, or a quit ends every frame that
there is, and goes on beyond them if it has levels left for that. -/
inductive Ends (m : Machine) : Signal → Prop where
  | atEnd (ended : m.pending? = none) : Ends m .okay
  | byQuit {frame : Frame} {callers : List Frame} {n : Int} (frames : m.frames = frame :: callers)
      (quits : m.quits? = some n) :
      Ends m (if frame.tailDepth + callers.length ≤ n - 1 then .quit else .okay)

theorem Ends.name {signal : Signal} (h : m.Ends signal) :
    signal.name = Text.ofString "OKAY" ∨ signal.name = Text.ofString "QUIT" := by
  cases h with
  | atEnd => exact .inl rfl
  | byQuit =>
    split
    · exact .inr rfl
    · exact .inl rfl

theorem ends_of_step {m' : Machine} {signal : Signal} (builtIn : m.overrides = {})
    (running : m.frames ≠ []) (stepped : step host calling m = .ok (some signal) m') :
    m.Ends signal := by
  obtain ⟨frame, callers, frames⟩ := List.exists_cons_of_ne_nil running
  cases quits : m.quits? with
  | some n =>
    have ends := Ends.byQuit frames quits
    by_cases within : n - 1 < frame.tailDepth
    · rw [step_quits_within builtIn frames quits within] at stepped
      rw [if_neg (by omega)] at ends
      cases callers with
      | nil =>
        cases stepped
        exact ends
      | cons => cases stepped
    · obtain ⟨k, beyond⟩ : ∃ k : Nat, n - 1 = frame.tailDepth + k :=
        ⟨(n - 1 - frame.tailDepth).toNat, by omega⟩
      rw [step_quits_beyond builtIn frames quits beyond] at stepped
      have reaches : (frame.tailDepth + callers.length ≤ n - 1) ↔ callers.length ≤ k := by omega
      simp only [reaches] at ends
      obtain ⟨given, -⟩ := EStateM.Result.ok.inj stepped
      unfold over? at given
      split at given
      · obtain rfl := Option.some.inj given
        exact ends
      · cases given
  | none =>
    cases pending : frame.cursor.peek? with
    | none =>
      have given := stepped
      rw [step_of_end frames pending] at given
      cases callers with
      | nil =>
        cases given
        exact .atEnd ((pending?_of_frames frames).trans pending)
      | cons => cases given
    | some ch => cases (step_quitless builtIn quits frames pending stepped).1

theorem perform_setUnwind {name : Text} {next : Option Text} {turned : Bool} {u : Int}
    (builtIn : m.overrides = {}) (h : (Instruction.ofName name).levels? m.store = none) :
    perform host name next turned (m.setUnwind u) =
      through (setUnwind u) (perform host name next turned m) := by
  refine Commutes.bind_at ?_ fun response =>
    .bind (commutes_ascribing name (commutes_printAll host _)) fun _ => .pure _
  simp only [respond, onStore, setUnwind, builtIn, Overrides.builtIn_setUnwind h]
  cases Overrides.perform {} name next turned m.store <;> rfl

/-- An instruction that does not quit neither sees nor sets the levels that are left. -/
theorem execute_setUnwind {name : Text} {cursor : Cursor} {frame : Frame} {callers : List Frame}
    {u : Int} (builtIn : m.overrides = {})
    (h : (Instruction.ofName name).levels? m.store = none) :
    execute host name cursor frame callers (m.setUnwind u) =
      through (setUnwind u) (execute host name cursor frame callers m) := by
  let begun := { m with frames := frame.begin cursor :: callers }
  change (perform host name _ frame.turned >>= _) (begun.setUnwind u) =
    through _ ((perform host name _ frame.turned >>= _) begun)
  exact Commutes.bind_at (perform_setUnwind builtIn h) fun action =>
    .bind (commutes_record _ _ _) fun _ => commutes_act _ _ _

end Machine

end DeskCalculator
