import DeskCalculator.Proofs.Machine.Course
import DeskCalculator.Proofs.Machine.Quit

/-!
Frames that take over mirrored by frames that do not. A frame that has had several texts stands for
as many invocations, of which only the innermost has anything left to execute. A machine that gives
every call a frame of its own has a frame for each of them, and the frames of finished invocations
just end in turn.
-/

namespace DeskCalculator

/-- The invocations that a frame executes, the innermost first; those it has finished are `none`. -/
def Frame.invocations (f : Frame) : List (Option Frame) :=
  some f :: List.replicate (f.tailDepth - 1) none

/-- The invocations in progress, the innermost first. -/
def invocations (frames : List Frame) : List (Option Frame) := frames.flatMap Frame.invocations

theorem invocations_cons (f : Frame) (fs : List Frame) :
    invocations (f :: fs) = some f :: (List.replicate (f.tailDepth - 1) none ++ invocations fs) :=
  rfl

theorem invocations_append (fs gs : List Frame) :
    invocations (fs ++ gs) = invocations fs ++ invocations gs := List.flatMap_append

theorem invocations_eq_nil {frames : List Frame} : invocations frames = [] ↔ frames = [] := by
  cases frames with
  | nil => exact iff_of_true rfl rfl
  | cons f fs => simp [invocations_cons]

/-- Frames of one text each that have the same left to execute as some invocations. -/
inductive Mirrored : List (Option Frame) → List Frame → Prop where
  | nil : Mirrored [] []
  | live {f g : Frame} {xs : List (Option Frame)} {gs : List Frame}
      (cursor : g.cursor = f.cursor) (turned : g.turned = f.turned) (single : g.tailDepth = 1)
      (rest : Mirrored xs gs) : Mirrored (some f :: xs) (g :: gs)
  | finished {g : Frame} {xs : List (Option Frame)} {gs : List Frame}
      (ended : g.cursor.peek? = none) (single : g.tailDepth = 1) (rest : Mirrored xs gs) :
      Mirrored (none :: xs) (g :: gs)

namespace Mirrored

variable {xs : List (Option Frame)} {gs : List Frame}

theorem length_eq (h : Mirrored xs gs) : xs.length = gs.length := by
  induction h with
  | nil => rfl
  | live _ _ _ _ ih => exact congrArg (· + 1) ih
  | finished _ _ _ ih => exact congrArg (· + 1) ih

theorem nil_iff (h : Mirrored xs gs) : xs = [] ↔ gs = [] := by
  cases h <;> simp

theorem drop (h : Mirrored xs gs) (n : Nat) : Mirrored (xs.drop n) (gs.drop n) := by
  induction n generalizing xs gs with
  | zero => exact h
  | succ n ih =>
    cases h with
    | nil => exact .nil
    | live _ _ _ rest => exact ih rest
    | finished _ _ rest => exact ih rest

/-- An invocation that has nothing left has finished. -/
theorem finish {f : Frame} (h : Mirrored (some f :: xs) gs) (ended : f.cursor.peek? = none) :
    Mirrored (none :: xs) gs := by
  cases h with
  | live cursor _ single rest => exact .finished (cursor ▸ ended) single rest

end Mirrored

/-- The frames of a machine that never lets a callee take over, for those of a machine that does. -/
structure Flattened (flat nested : List Frame) : Prop where
  mirrored : Mirrored (invocations flat) nested
  deep : ∀ f ∈ flat, 1 ≤ f.tailDepth

namespace Flattened

variable {f g : Frame} {fs gs : List Frame}

theorem begin (name text : Text) : Flattened [Frame.ofText name text] [Frame.ofText name text] where
  mirrored := .live rfl rfl rfl .nil
  deep := by simp [Frame.ofText]

theorem tail (h : Flattened (f :: fs) gs) : Flattened fs (gs.drop f.tailDepth) where
  mirrored := by
    have rest := h.mirrored.drop f.tailDepth
    have one := h.deep f List.mem_cons_self
    have all : (some f :: List.replicate (f.tailDepth - 1) none).length = f.tailDepth := by
      simp only [List.length_cons, List.length_replicate]
      omega
    rw [invocations_cons, ← List.cons_append, List.drop_append_of_le_length (by omega),
      List.drop_of_length_le (by omega)] at rest
    exact rest
  deep := fun f' mem => h.deep f' (List.mem_cons_of_mem _ mem)

theorem over? (h : Flattened fs gs) (signal : Signal) :
    Machine.over? signal fs = Machine.over? signal gs := by
  have same : fs = [] ↔ gs = [] := invocations_eq_nil.symm.trans h.mirrored.nil_iff
  simp only [Machine.over?, List.isEmpty_iff, same]

/-- Frames that mirror each other stand at the same place. -/
theorem cursor (h : Flattened fs gs) :
    fs.head?.map (·.cursor) = gs.head?.map (·.cursor) := by
  cases fs with
  | nil =>
    cases h.mirrored
    rfl
  | cons f fs =>
    cases h.mirrored with
    | live cursor => exact congrArg some cursor.symm

theorem goOn (h : Flattened (f :: fs) (g :: gs)) (cursor : Cursor) (p q : Nat) (turned : Bool) :
    Flattened ({ f with cursor, position := p, turned } :: fs)
      ({ g with cursor, position := q, turned } :: gs) where
  mirrored := by
    cases h.mirrored with
    | live _ _ single rest => exact .live rfl rfl single rest
  deep := by
    have deep := h.deep
    simp only [List.forall_mem_cons] at deep ⊢
    exact deep

/-- A callee that takes over leaves a finished invocation behind it. -/
theorem call (h : Flattened (f :: fs) (g :: gs)) (unturned : f.turned = false) (text : Text) :
    Flattened (f.call .flat text ++ fs) (g.call .nested text ++ gs) := by
  have one := h.deep f List.mem_cons_self
  have deep := h.deep
  simp only [List.forall_mem_cons] at deep
  cases h.mirrored with
  | live cursor turned single rest =>
    have nests : g.call .nested text = [Frame.ofText Frame.macroName text, g] := by
      simp [Frame.call]
    rw [nests]
    by_cases ended : f.cursor.atEnd
    · rw [Frame.call, if_pos ⟨rfl, ended⟩]
      constructor
      · have finished : g.cursor.peek? = none := by
          simpa [cursor, Cursor.peek?, Cursor.atEnd] using ended
        have more : f.tailDepth = f.tailDepth - 1 + 1 := by omega
        refine .live rfl unturned.symm rfl ?_
        change Mirrored (List.replicate f.tailDepth none ++ invocations fs) (g :: gs)
        rw [more]
        exact .finished finished single rest
      · simpa using deep.2
    · rw [Frame.call, if_neg fun takes => ended takes.2]
      constructor
      · exact .live rfl rfl rfl (.live cursor turned single rest)
      · simp only [List.cons_append, List.nil_append, List.forall_mem_cons]
        exact ⟨Nat.le_refl _, deep⟩

end Flattened

namespace Machine

variable {host : Host} {calling : Calling} {m n : Machine}

/-- Finished frames end one after the other. -/
theorem steps_drain {xs : List (Option Frame)} (j : Nat)
    (mirrored : Mirrored (List.replicate (j + 1) none ++ xs) m.frames) :
    steps host calling (j + 1) m =
      .ok (over? .okay (m.frames.drop (j + 1))) { m with frames := m.frames.drop (j + 1) } := by
  -- Only the last of them can be the outermost frame, so the run goes on until then.
  induction j generalizing m with
  | zero =>
    generalize frames : m.frames = fs at mirrored
    cases mirrored with
    | finished ended _ rest => exact (steps_one m).trans (step_of_end frames ended)
  | succ j ih =>
    generalize frames : m.frames = fs at mirrored
    cases mirrored with
    | @finished g _ gs ended _ rest =>
      have more : over? .okay gs = none := by
        cases rest
        rfl
      have stepped : step host calling m = _ := step_of_end frames ended
      rw [more] at stepped
      rw [steps_succ stepped]
      exact ih (m := { m with frames := gs }) rest

/-- The end of a text ends the invocations that the frame has finished before, too. -/
theorem steps_end {f : Frame} {fs : List Frame} (flat : Flattened (f :: fs) n.frames)
    (ended : f.cursor.peek? = none) :
    steps host calling f.tailDepth n =
      .ok (over? .okay fs) { n with frames := n.frames.drop f.tailDepth } := by
  have one := flat.deep f List.mem_cons_self
  obtain ⟨j, deep⟩ : ∃ j, f.tailDepth = j + 1 := ⟨f.tailDepth - 1, by omega⟩
  have finished := flat.mirrored.finish ended
  rw [deep] at finished
  rw [flat.tail.over?, deep]
  exact steps_drain j finished

/-- Whatever an instruction asks but to quit, frames that mirror each other do alike. -/
theorem follow_flattened {f g : Frame} {fs gs : List Frame} {move : Move}
    (flat : Flattened (f :: fs) (g :: gs)) (asked : move ≠ .quit) (c : Cursor) (m n : Machine) :
    ∃ flat' nested', follow .flat (f.begin c) fs move m = .ok none { m with frames := flat' } ∧
      follow .nested (g.begin c) gs move n = .ok none { n with frames := nested' } ∧
      Flattened flat' nested' := by
  cases move with
  | goOn cursor turned => exact ⟨_, _, rfl, rfl, flat.goOn cursor _ _ turned⟩
  | call text cursor => exact ⟨_, _, rfl, rfl, (flat.goOn cursor _ _ false).call rfl text⟩
  | quit => exact absurd rfl asked

end Machine

end DeskCalculator
