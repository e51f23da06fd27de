import DeskCalculator.Proofs.CallStack
import DeskCalculator.Proofs.Machine.Simulation

/-!
Quits and invocations. A quit counts the texts that its own frame has had, but beyond that frame it
counts frames. It ends as many invocations as it is for just if the frames it counts have not had
more texts than there are levels left for them, and where every quit of a program fits in this way
it does not matter whether callees take over.
-/

namespace DeskCalculator

/-- The frames of the invocations that have something left to execute. -/
def live (xs : List (Option Frame)) : List Frame := xs.filterMap id

theorem live_append (xs ys : List (Option Frame)) : live (xs ++ ys) = live xs ++ live ys :=
  List.filterMap_append

theorem live_replicate (j : Nat) : live (List.replicate j none) = [] := by
  simp [live, List.filterMap_replicate_of_none]

theorem live_invocations (frames : List Frame) : live (invocations frames) = frames := by
  induction frames with
  | nil => rfl
  | cons f fs ih =>
    rw [invocations_cons, ← List.singleton_append, live_append, live_append, live_replicate, ih]
    rfl

theorem live_map_some (frames : List Frame) : live (frames.map some) = frames := by
  simp [live, List.filterMap_map]

theorem live_finished (j : Nat) (frames : List Frame) :
    live (List.replicate j none ++ invocations frames) = frames := by
  rw [live_append, live_replicate, live_invocations, List.nil_append]

/-- Whether a quit for `n` levels meets no more texts than frames where it counts frames. -/
def Fits (n : Int) : List Frame → Prop
  | [] => True
  | frame :: callers =>
    let left := (n - 1 - frame.tailDepth).toNat
    totalDepth (callers.take left) ≤ left

instance (n : Int) : (frames : List Frame) → Decidable (Fits n frames)
  | [] => .isTrue trivial
  | _ :: _ => inferInstanceAs (Decidable (_ ≤ _))

variable {f : Frame} {fs : List Frame} {n : Int}

theorem fits_within (within : n - 1 < f.tailDepth) : Fits n (f :: fs) := by
  have none : (n - 1 - f.tailDepth).toNat = 0 := by omega
  simp [Fits, none, totalDepth]

theorem fits_beyond {k : Nat} (beyond : n - 1 = f.tailDepth + k) :
    Fits n (f :: fs) ↔ totalDepth (fs.take k) ≤ k := by
  have left : (n - 1 - f.tailDepth).toNat = k := by omega
  simp only [Fits, left]

theorem length_invocations (deep : ∀ f ∈ fs, 1 ≤ f.tailDepth) :
    (invocations fs).length = totalDepth fs := by
  induction fs with
  | nil => rfl
  | cons f fs ih =>
    simp only [List.forall_mem_cons] at deep
    simp only [invocations_cons, List.length_cons, List.length_append, List.length_replicate,
      totalDepth, ih deep.2]
    omega

theorem length_le_invocations (fs : List Frame) : fs.length ≤ (invocations fs).length := by
  have lives := congrArg List.length (live_invocations fs)
  rw [← lives]
  exact List.length_filterMap_le _ _

/-- Ending levels of the innermost frame only ends invocations that it has finished. -/
theorem drop_invocations_within {i : Nat} (some : 0 < i) (within : i ≤ f.tailDepth) :
    (invocations (f :: fs)).drop i = List.replicate (f.tailDepth - i) none ++ invocations fs := by
  obtain ⟨i, rfl⟩ : ∃ k, i = k + 1 := ⟨i - 1, by omega⟩
  rw [invocations_cons, List.drop_succ_cons, List.drop_append_of_le_length (by simp; omega),
    List.drop_replicate]
  congr 2
  omega

theorem drop_invocations_beyond (deep : 1 ≤ f.tailDepth) (i : Nat) :
    (invocations (f :: fs)).drop (f.tailDepth + i) = (invocations fs).drop i := by
  rw [← List.drop_drop, drop_invocations_within deep (Nat.le_refl _), Nat.sub_self]
  rfl

theorem invocations_split (k : Nat) (fs : List Frame) :
    invocations fs = invocations (fs.take k) ++ invocations (fs.drop k) := by
  rw [← invocations_append, List.take_append_drop]

/-- Levels that fit end as many invocations as frames, and what is finished beyond. -/
theorem drop_invocations_of_fits {k : Nat} (deep : ∀ f ∈ fs, 1 ≤ f.tailDepth)
    (fits : totalDepth (fs.take k) ≤ k) :
    ∃ j, (invocations fs).drop (k + 1) =
      List.replicate j none ++ invocations (fs.drop (k + 1)) := by
  rw [← length_invocations fun f mem => deep f (List.mem_of_mem_take mem)] at fits
  -- The first `k` frames fit only if there are fewer, or each has had one text.
  by_cases enough : fs.length ≤ k
  · rw [List.take_of_length_le enough] at fits
    refine ⟨0, ?_⟩
    rw [List.drop_of_length_le (by omega), List.drop_of_length_le (by omega)]
    rfl
  · have all : (fs.take k).length = k := by
      rw [List.length_take]
      omega
    have exact : (invocations (fs.take k)).length = k := by
      have := length_le_invocations (fs.take k)
      omega
    have next := List.drop_eq_getElem_cons (Nat.lt_of_not_le enough)
    have deep' := deep _ (List.getElem_mem (Nat.lt_of_not_le enough))
    refine ⟨fs[k].tailDepth - 1, ?_⟩
    rw [invocations_split k fs, List.drop_append, exact, List.drop_of_length_le (by omega), next,
      Nat.add_sub_cancel_left, drop_invocations_within Nat.one_pos deep']
    rfl

/-- Levels that do not fit leave one more invocation with something to execute. -/
theorem drop_invocations_of_not_fits {k : Nat} (deep : ∀ f ∈ fs, 1 ≤ f.tailDepth)
    (unfit : k < totalDepth (fs.take k)) :
    fs.length - k ≤ (live ((invocations fs).drop (k + 1))).length := by
  rw [← length_invocations fun f mem => deep f (List.mem_of_mem_take mem)] at unfit
  rw [invocations_split k fs, List.drop_append_of_le_length unfit, live_append, live_invocations,
    List.length_append, List.length_drop]
  exact Nat.le_add_left _ _

/-- Frames of one text each are the invocations in progress. -/
theorem invocations_of_single (single : ∀ f ∈ fs, f.tailDepth = 1) :
    invocations fs = fs.map some := by
  induction fs with
  | nil => rfl
  | cons f fs ih =>
    simp only [List.forall_mem_cons] at single
    rw [invocations_cons, single.1, ih single.2]
    rfl

theorem fits_of_single (single : ∀ f ∈ fs, f.tailDepth = 1) (n : Int) : Fits n fs := by
  cases fs with
  | nil => trivial
  | cons f fs =>
    have single' (k : Nat) : ∀ g ∈ fs.take k, g.tailDepth = 1 := fun g mem =>
      single g (List.mem_cons_of_mem _ (List.mem_of_mem_take mem))
    rw [Fits, ← length_invocations fun g mem => Nat.le_of_eq (single' _ g mem).symm,
      invocations_of_single (single' _), List.length_map, List.length_take]
    exact Nat.min_le_left _ _

theorem Mirrored.single {xs : List (Option Frame)} {gs : List Frame} (h : Mirrored xs gs) :
    ∀ g ∈ gs, g.tailDepth = 1 := by
  induction h with
  | nil => simp
  | live _ _ single _ ih => exact List.forall_mem_cons.mpr ⟨single, ih⟩
  | finished _ single _ ih => exact List.forall_mem_cons.mpr ⟨single, ih⟩

namespace Machine

variable {host : Host} {calling : Calling} {name source : Text} {start m m' : Machine}

/-- A quit that fits ends as many invocations as it is for, and goes on beyond the outermost one if
there are fewer. -/
theorem quit_of_fits (host : Host) (calling : Calling) (builtIn : m.overrides = {})
    (quits : m.quits? = some n) (deep : ∀ f ∈ m.frames, 1 ≤ f.tailDepth) (fits : Fits n m.frames) :
    ∃ unwind frames' j,
      step host calling m =
        .ok (over? (if ((invocations m.frames).length : Int) < n then .quit else .okay) frames')
          { m.quitting n with
            store := (m.quitting n).store.setUnwind unwind
            frames := frames' } ∧
      (invocations m.frames).drop n.toNat = List.replicate j none ++ invocations frames' ∧
      frames' <:+ m.frames := by
  obtain ⟨f, fs, ch, frames, -, -⟩ := exists_of_quits quits
  have positive := quits?_pos quits
  rw [frames] at deep fits ⊢
  have depth := length_invocations deep
  simp only [List.forall_mem_cons] at deep
  simp only [totalDepth] at depth
  by_cases within : n - 1 < f.tailDepth
  · have stays : ¬ ((invocations (f :: fs)).length : Int) < n := by omega
    refine ⟨n - 1, fs, f.tailDepth - n.toNat, ?_,
      drop_invocations_within (by omega) (by omega), List.suffix_cons f fs⟩
    rw [if_neg stays, step_quits_within builtIn frames quits within]
    rfl
  · obtain ⟨k, beyond⟩ : ∃ k : Nat, n - 1 = f.tailDepth + k :=
      ⟨(n - 1 - f.tailDepth).toNat, by omega⟩
    have fits := (fits_beyond beyond).mp fits
    obtain ⟨j, dropped⟩ := drop_invocations_of_fits deep.2 fits
    have number : n.toNat = f.tailDepth + (k + 1) := by omega
    have quitting : (fs.length ≤ k) ↔ ((invocations (f :: fs)).length : Int) < n := by
      constructor
      · intro few
        rw [List.take_of_length_le few] at fits
        omega
      · intro more
        have := length_le_invocations fs
        rw [length_invocations deep.2] at this
        omega
    refine ⟨(k - fs.length : Nat), fs.drop (k + 1), j, ?_, ?_,
      (List.drop_suffix _ _).trans (List.suffix_cons f fs)⟩
    · rw [step_quits_beyond builtIn frames quits beyond]
      simp only [quitting]
    · rw [number, drop_invocations_beyond deep.1, dropped]

/-- What a quit for `n` levels should come to when `depth` invocations are in progress: the `n`
innermost end, and the run has quit if there are fewer. -/
def EndsInvocations (n : Int) (depth : Nat) (m : Machine) (signal : Option Signal) (m' : Machine) :
    Prop :=
  m'.frames = live ((invocations m.frames).drop n.toNat) ∧
    (m'.frames = [] → (signal = some .quit ↔ (depth : Int) < n))

theorem quit_ends_iff (host : Host) (calling : Calling) (builtIn : m.overrides = {})
    (quits : m.quits? = some n) (deep : ∀ f ∈ m.frames, 1 ≤ f.tailDepth) :
    ∃ signal m', step host calling m = .ok signal m' ∧
      (EndsInvocations n (invocations m.frames).length m signal m' ↔ Fits n m.frames) := by
  by_cases fits : Fits n m.frames
  · obtain ⟨unwind, frames', j, stepped, dropped, -⟩ :=
      quit_of_fits host calling builtIn quits deep fits
    refine ⟨_, _, stepped, iff_of_true ⟨?_, ?_⟩ fits⟩
    · rw [dropped, live_finished]
    · intro ended
      have none : frames' = [] := ended
      subst none
      by_cases quit : ((invocations m.frames).length : Int) < n
      · simp [over?, quit]
      · simp [over?, quit]
  · obtain ⟨f, fs, ch, frames, -, -⟩ := exists_of_quits quits
    rw [frames] at deep fits
    have depth := length_invocations deep
    simp only [List.forall_mem_cons] at deep
    simp only [totalDepth] at depth
    have beyond : ¬ n - 1 < f.tailDepth := fun within => fits (fits_within within)
    obtain ⟨k, beyond⟩ : ∃ k : Nat, n - 1 = f.tailDepth + k :=
      ⟨(n - 1 - f.tailDepth).toNat, by omega⟩
    have number : n.toNat = f.tailDepth + (k + 1) := by omega
    have unfit := Nat.lt_of_not_le fun le => fits ((fits_beyond beyond).mpr le)
    have lives := drop_invocations_of_not_fits deep.2 unfit
    refine ⟨_, _, step_quits_beyond builtIn frames quits beyond, iff_of_false ?_ (frames ▸ fits)⟩
    rintro ⟨left, signals⟩
    rw [frames] at left signals
    rw [number, drop_invocations_beyond deep.1] at left
    rw [← left, List.length_drop] at lives
    have few : fs.length ≤ k := by omega
    rw [List.take_of_length_le few] at unfit
    have none : fs.drop (k + 1) = [] := List.drop_of_length_le (by omega)
    have quit := (signals none).mp (by simp [over?, none, few])
    omega

theorem bare_quitting (same : m.bare = m'.bare) (flat : Flattened m.frames m'.frames) (n : Int) :
    (m.quitting n).bare = (m'.quitting n).bare := by
  obtain ⟨store, overrides, journal, history⟩ := bare_eq_iff.mp same
  have stack : (m.store.setUnwind 0).stack = (m'.store.setUnwind 0).stack := by rw [store]
  have stack : m.store.stack = m'.store.stack := stack
  refine bare_eq_iff.mpr ⟨?_, overrides, ?_, history⟩
  · simp only [quitting, pending?_flattened flat, stack]
    let paid := (Instruction.ofName m'.pending?.toList).unpaid m'.store.stack
    exact congrArg (fun s : Store => { s with stack := paid }) store
  · simp only [quitting, Journal.unframed_record, journal, pending?_flattened flat, stack,
      flat.cursor]

/-- Where no frame has had another text, a quit for `n` levels ends `n` frames. -/
theorem quit_of_single (host : Host) (calling : Calling) (builtIn : m.overrides = {})
    (quits : m.quits? = some n) (single : ∀ f ∈ m.frames, f.tailDepth = 1) :
    ∃ unwind,
      step host calling m =
        .ok (over? (if (m.frames.length : Int) < n then .quit else .okay)
            (m.frames.drop n.toNat))
          { m.quitting n with
            store := (m.quitting n).store.setUnwind unwind
            frames := m.frames.drop n.toNat } := by
  obtain ⟨unwind, frames', j, stepped, left, -⟩ := quit_of_fits host calling builtIn quits
    (fun f mem => Nat.le_of_eq (single f mem).symm) (fits_of_single single n)
  rw [invocations_of_single single] at stepped left
  have lives := congrArg live left
  rw [live_finished, ← List.map_drop, live_map_some] at lives
  subst lives
  rw [List.length_map] at stepped
  exact ⟨unwind, stepped⟩

/-- When a quit fits, the machine that nests every call quits alike, and then comes through the
invocations that have finished. -/
theorem quit_mirrors (obliging : host.Obliging) (builtIn : m.overrides = {})
    (quits : m.quits? = some n) (fits : Fits n m.frames) (same : m.bare = m'.bare)
    (flat : Flattened m.frames m'.frames) :
    ∃ k, Mirrors bare (step host .flat m) (steps host .nested (k + 1) m') := by
  have view := view_bare obliging
  have positive := quits?_pos quits
  have builtIn' : m'.overrides = {} := (bare_eq_iff.mp same).2.1.symm.trans builtIn
  have quits' : m'.quits? = some n := (quits?_flattened same flat).symm.trans quits
  obtain ⟨unwind, fs, j, stepped, left, spared⟩ :=
    quit_of_fits host .flat builtIn quits flat.deep fits
  obtain ⟨unwind', stepped'⟩ := quit_of_single host .nested builtIn' quits' flat.mirrored.single
  have rest := flat.mirrored.drop n.toNat
  rw [left] at rest
  have flat' : Flattened fs ((m'.frames.drop n.toNat).drop j) := by
    have mirrored := rest.drop j
    rw [List.drop_append_of_le_length (by simp), List.drop_of_length_le (by simp)] at mirrored
    exact ⟨mirrored, fun f mem => flat.deep f (spared.mem mem)⟩
  rw [flat.mirrored.length_eq] at stepped
  let quit : Machine := { m.quitting n with store := (m.quitting n).store.setUnwind unwind }
  let quit' : Machine := { m'.quitting n with store := (m'.quitting n).store.setUnwind unwind' }
  have quitting : quit.bare = quit'.bare := bare_quitting same flat n
  refine ⟨j, ?_⟩
  cases j with
  | zero =>
    rw [List.drop_zero] at flat'
    rw [steps_one, stepped, stepped', ← flat'.over?]
    exact mirrors_over view flat' quitting _
  | succ j =>
    have more : n < m'.frames.length := by
      have finished := rest.length_eq
      simp only [List.length_append, List.length_replicate, List.length_drop] at finished
      omega
    have going : over? (if (m'.frames.length : Int) < n then .quit else .okay)
        (m'.frames.drop n.toNat) = none := by
      simp only [over?, List.isEmpty_iff, List.drop_eq_nil_iff]
      rw [if_neg (by omega)]
    rw [going] at stepped'
    rw [stepped, steps_succ stepped', if_neg (by omega), steps_drain j rest, ← flat'.over?]
    exact mirrors_over view flat' quitting _

/-- A quit of a program ends the invocations that it is for just if it fits. -/
theorem underway_quit_ends_iff {calls : List Nat}
    (h : Underway host .flat name source start m calls) (builtIn : start.overrides = {})
    (quits : m.quits? = some n) :
    (invocations m.frames).length = 1 + calls.length ∧
      ∃ signal m', step host .flat m = .ok signal m' ∧
        (EndsInvocations n (1 + calls.length) m signal m' ↔ Fits n m.frames) := by
  have disciplined := underway_disciplined h
  have depth := (length_invocations disciplined.deep).trans disciplined.depth
  have ends := quit_ends_iff host .flat (h.overrides.trans builtIn) quits disciplined.deep
  rw [depth] at ends
  exact ⟨depth, ends⟩

/-- Quits count invocations just as far as they fit. Whatever quit a program comes to, it ends as
many of the invocations in progress as it is for if and only if it fits; and a program of which
every quit fits has the same outcomes whether a callee takes over the frame of a finished caller or
not. -/
theorem quit_levels_iff (builtIn : start.overrides = {}) :
    (∀ m calls n, Underway host .flat name source start m calls → m.quits? = some n →
      (invocations m.frames).length = 1 + calls.length ∧
        ∃ signal m', step host .flat m = .ok signal m' ∧
          (EndsInvocations n (1 + calls.length) m signal m' ↔ Fits n m.frames)) ∧
    (host.Obliging →
      (∀ m calls n, Underway host .flat name source start m calls → m.quits? = some n →
        Fits n m.frames) →
      ∀ o, (∃ limit, outcome bare (run host .flat limit name source start) = some o) ↔
        ∃ limit, outcome bare (run host .nested limit name source start) = some o) := by
  constructor
  · intro m calls n h quits
    exact underway_quit_ends_iff h builtIn quits
  · intro obliging fits o
    have view := view_bare obliging
    refine outcome_iff view ?_ o
    intro m n calls calls' flatly nested same flat
    have builtIn : m.overrides = {} := flatly.overrides.trans builtIn
    cases quits : m.quits? with
    | none => exact step_mirrors view builtIn flatly.running quits same flat
    | some k => exact quit_mirrors obliging builtIn quits (fits m calls k flatly quits) same flat

/-- The quit of `[[[[3Q]x]x 1p]x]x 4p` fits. It is the second text of its frame, whose caller has had
two texts as well; it ends both texts of the one frame and the second of the other, where nothing is
left of the first. -/
theorem quit_levels_three :
    let source := Text.ofString "[[[[3Q]x]x 1p]x]x 4p"
    let o := outcome bare (run {} .nested 20 [] source {})
    o.isSome ∧ (∀ m calls n, Underway {} .flat [] source {} m calls → m.quits? = some n →
      Fits n m.frames) ∧ (∃ limit, outcome bare (run {} .flat limit [] source {}) = o) ∧
    ∃ m calls signal m', Underway {} .flat [] source {} m calls ∧ m.quits? = some 3 ∧
      m.frames.map (·.tailDepth) = [2, 2, 1] ∧ step {} .flat m = .ok signal m' ∧
      EndsInvocations 3 (1 + calls.length) m signal m' := by
  intro source o
  have ends : o.isSome := by decide +kernel
  have reached : ∀ i < 14, ∀ n ∈ (leftState (stepsOf {} .flat [] source {} i)).quits?,
      Fits n (leftState (stepsOf {} .flat [] source {} i)).frames := by
    decide +kernel
  have fits : ∀ m calls n, Underway {} .flat [] source {} m calls → m.quits? = some n →
      Fits n m.frames := by
    intro m calls n h quits
    obtain ⟨i, lt, rfl⟩ := h.before (i := 14) (by decide +kernel)
    exact reached i lt n quits
  obtain ⟨quitsEnd, outcomes⟩ := @quit_levels_iff {} [] source {} rfl
  obtain ⟨o', ho⟩ := Option.isSome_iff_exists.mp ends
  have same := outcomes Host.obliging_default fits o'
  refine ⟨ends, fits, ?_, ?_⟩
  · rw [ho]
    exact same.mpr ⟨20, ho⟩
  · obtain ⟨m, calls, underway, quits, depths⟩ :
        ∃ m calls, Underway {} .flat [] source {} m calls ∧ m.quits? = some 3 ∧
          m.frames.map (·.tailDepth) = [2, 2, 1] := by
      obtain ⟨calls, underway⟩ : ∃ calls, Underway {} .flat [] source {}
          (leftState (stepsOf {} .flat [] source {} 9)) calls :=
        underway_stepsOf rfl (by decide +kernel)
      exact ⟨_, calls, underway, by decide +kernel, by decide +kernel⟩
    obtain ⟨-, signal, m', stepped, ended⟩ := quitsEnd m calls 3 underway quits
    exact ⟨m, calls, signal, m', underway, quits, depths, stepped,
      ended.mpr (fits m calls 3 underway quits)⟩

/-- In `[[[3Q]x 1p]x]x 2p` the quit is for the three macros in progress, but one of its levels is
lost: the caller's frame has had two of them. The run ends before the `2p` that is left of the
program, which is executed where every call has a frame of its own. -/
theorem quit_levels_lost :
    let source := Text.ofString "[[[3Q]x 1p]x]x 2p"
    (∃ m calls signal m', Underway {} .flat [] source {} m calls ∧ m.quits? = some 3 ∧
      calls.length = 3 ∧ step {} .flat m = .ok signal m' ∧
        ¬ EndsInvocations 3 (1 + calls.length) m signal m') ∧
      ¬ ∀ o, (∃ limit, outcome bare (run {} .flat limit [] source {}) = some o) ↔
        ∃ limit, outcome bare (run {} .nested limit [] source {}) = some o := by
  intro source
  constructor
  · obtain ⟨m, calls, h, quits, unfit, four⟩ :
        ∃ m calls, Underway {} .flat [] source {} m calls ∧ m.quits? = some 3 ∧
          ¬ Fits 3 m.frames ∧ totalDepth m.frames = 4 := by
      obtain ⟨calls, h⟩ : ∃ calls, Underway {} .flat [] source {}
          (leftState (stepsOf {} .flat [] source {} 7)) calls :=
        underway_stepsOf rfl (by decide +kernel)
      exact ⟨_, calls, h, by decide +kernel, by decide +kernel, by decide +kernel⟩
    have three : calls.length = 3 := by
      have depth := (underway_disciplined h).depth
      omega
    obtain ⟨-, signal, m', stepped, ends⟩ := underway_quit_ends_iff h rfl quits
    exact ⟨m, calls, signal, m', h, quits, three, stepped, fun ended => unfit (ends.mp ended)⟩
  · intro same
    let flat := outcome bare (run {} .flat 12 [] source {})
    let nested := outcome bare (run {} .nested 12 [] source {})
    have written : flat.map (·.2.history) ≠ nested.map (·.2.history) := by decide +kernel
    have ends : flat.isSome ∧ nested.isSome := by decide +kernel
    obtain ⟨o, flatly⟩ := Option.isSome_iff_exists.mp ends.1
    obtain ⟨o', nestedly⟩ := Option.isSome_iff_exists.mp ends.2
    obtain ⟨limit, flatly'⟩ := (same o').mpr ⟨12, nestedly⟩
    obtain rfl := outcome_unique flatly flatly'
    exact written (by rw [flatly, nestedly])

end Machine

end DeskCalculator
