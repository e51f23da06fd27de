import DeskCalculator.Proofs.Machine.Course
import DeskCalculator.Proofs.Machine.Quit

/-!
How far a quit unwinds the frames: the frame that quits ends alone unless its levels are used up,
and beyond them one caller more than there are levels left.
-/

namespace DeskCalculator.Machine

variable {host : Host} {name source : Text} {start m : Machine} {calls : List Nat} {frame : Frame}
  {callers : List Frame} {n : Int}

/-- A quit for `n` levels, of which one is the end of the text that quits. When the others are fewer
than the frame has had texts, that frame ends alone. When `k` of them are left, `k + 1` callers end
with it, as far as there are so many, and the next one goes on where it stands. Without a next one
the run is over, and it has quit when levels were left for more callers than there were. Besides the
frames a quit changes nothing but the number of levels, which is never negative. -/
theorem quit_unwinds (h : Underway host .flat name source start m calls)
    (builtIn : start.overrides = {}) (frames : m.frames = frame :: callers)
    (quits : m.quits? = some n) :
    ∃ signal m', step host .flat m = .ok signal m' ∧
      (n - 1 < frame.tailDepth → m'.frames = callers ∧ signal = over? .okay callers) ∧
      (∀ k : Nat, n - 1 = frame.tailDepth + k →
        m'.frames = m.frames.drop (min m.frames.length (k + 2)) ∧
          signal = over? (if m.frames.length - 1 ≤ k then .quit else .okay) m'.frames) ∧
      (∃ unwind, 0 ≤ unwind ∧ m' = { m.quitting n with
        store := (m.quitting n).store.setUnwind unwind
        frames := m'.frames }) ∧
      ∀ ended, signal = some ended → ∃ limit, run host .flat limit name source start =
        some (conclude host (.programEnd ended) (.ok ended) m') := by
  have builtIn : m.overrides = {} := h.overrides.trans builtIn
  have positive := quits?_pos quits
  have ending {signal : Option Signal} {m' : Machine} (stepped : step host .flat m = .ok signal m')
      (ended : Signal) (ends : signal = some ended) :
      ∃ limit, run host .flat limit name source start =
        some (conclude host (.programEnd ended) (.ok ended) m') := by
    subst ends
    exact h.run_ends stepped
  by_cases within : n - 1 < frame.tailDepth
  · have stepped : step host .flat m = _ := step_quits_within builtIn frames quits within
    refine ⟨_, _, stepped, fun _ => ⟨rfl, rfl⟩, fun k beyond => ?_, ?_, ending stepped⟩
    · omega
    · exact ⟨n - 1, by omega, rfl⟩
  · obtain ⟨k, beyond⟩ : ∃ k : Nat, n - 1 = frame.tailDepth + k :=
      ⟨(n - 1 - frame.tailDepth).toNat, by omega⟩
    have stepped : step host .flat m = _ := step_quits_beyond builtIn frames quits beyond
    refine ⟨_, _, stepped, fun within' => absurd within' within, fun k' beyond' => ?_, ?_,
      ending stepped⟩
    · obtain rfl : k' = k := by omega
      have dropped : callers.drop (k' + 1) = m.frames.drop (min m.frames.length (k' + 2)) := by
        rw [frames, List.length_cons]
        by_cases enough : k' + 1 ≤ callers.length
        · rw [Nat.min_eq_right (by omega)]
          rfl
        · rw [Nat.min_eq_left (by omega), List.drop_of_length_le (by omega)]
          simp
      exact ⟨dropped, by rw [frames]; rfl⟩
    · exact ⟨_, Int.natCast_nonneg _, rfl⟩

/-- The quit of `[[[3Q]x 1p]x 2p]x 4p` ends three of the four frames. -/
theorem quit_unwinds_three :
    let source := Text.ofString "[[[3Q]x 1p]x 2p]x 4p"
    let m := leftState (stepsOf {} .flat [] source {} 7)
    (∃ calls, Underway {} .flat [] source {} m calls) ∧ m.quits? = some 3 ∧
      m.frames.length = 4 ∧
      ∃ m', step {} .flat m = .ok none m' ∧ m'.frames = m.frames.drop 3 := by
  intro source m
  obtain ⟨calls, underway⟩ : ∃ calls, Underway {} .flat [] source {} m calls :=
    underway_stepsOf rfl (by decide +kernel)
  have quits : m.quits? = some 3 := by decide +kernel
  have height : m.frames.length = 4 := by decide +kernel
  obtain ⟨frame, callers, ch, frames, -, -⟩ := exists_of_quits quits
  have deep : m.frames.head?.map (·.tailDepth) = some 1 := by decide +kernel
  have one : frame.tailDepth = 1 := by simpa [frames] using deep
  obtain ⟨signal, m', stepped, -, beyond, -, -⟩ := quit_unwinds underway rfl frames quits
  obtain ⟨left, ends⟩ := beyond 1 (by omega)
  rw [height] at left ends
  refine ⟨⟨calls, underway⟩, quits, height, m', ?_, left⟩
  rw [stepped, ends, over?, if_neg (by simp [left, height])]

end DeskCalculator.Machine
