import Mathlib.Data.List.TakeWhile
import Mathlib.Order.Bounds.Basic
import DeskCalculator.Proofs.Cursor
import DeskCalculator.Proofs.Machine.Course

/-!
Blanks and comments, which stand between instructions and do nothing. A call skips those behind it,
all that stand there in a row, up to the first character that is neither or to the end of the text.
A machine that executed them one by one instead would come to the same place and do nothing else.
-/

namespace DeskCalculator

namespace Literal

def blanks : Text := [.scalar ' ', .scalar '\t', .scalar '\n']

/-- A blank or a comment in front of `more`. A comment goes on through the end of its line, or to
the end of the text. -/
inductive Spacer (more : Text) : Text → Prop where
  | blank {c : CodePoint} (blank : c ∈ blanks) : Spacer more [c]
  | comment {inside : Text} (oneLine : .scalar '\n' ∉ inside) :
      Spacer more (.scalar '#' :: (inside ++ [.scalar '\n']))
  | lastComment {inside : Text} (oneLine : .scalar '\n' ∉ inside) (last : more = []) :
      Spacer more (.scalar '#' :: inside)

/-- Blanks and comments in front of `more`, one behind the other. -/
inductive Spacing (more : Text) : Text → Prop where
  | none : Spacing more []
  | cons {t rest : Text} (first : Spacer (rest ++ more) t) (further : Spacing more rest) :
      Spacing more (t ++ rest)

/-- Nothing but blanks and comments stands between the two positions, and at `p` the text has ended
or something else stands there. -/
structure Resumes (text : Text) (start p : Nat) : Prop where
  onward : start ≤ p
  spacing : Spacing (text.drop p) (text.extract start p)
  stops : text.length ≤ p ∨ ∃ c, text[p]? = some c ∧ c ∉ blanks ∧ c ≠ .scalar '#'

def Unspaced (t : Text) : Prop := ∀ c, t.head? = some c → c ∉ blanks ∧ c ≠ .scalar '#'

variable {text t more inside : Text} {c : CodePoint} {start p : Nat}

theorem unspaced_drop :
    Unspaced (text.drop p) ↔
      text.length ≤ p ∨ ∃ c, text[p]? = some c ∧ c ∉ blanks ∧ c ≠ .scalar '#' := by
  rw [Unspaced, List.head?_drop]
  cases found : text[p]? with
  | none => simpa using found
  | some c =>
    have within : ¬ text.length ≤ p := Nat.not_le.mpr (List.getElem?_eq_some_iff.mp found).1
    simp [within]

theorem isBlank_iff (c : CodePoint) : isBlank c ↔ c ∈ blanks := by
  simp [isBlank, blanks, or_assoc]

theorem blankLength_unspaced (h : Unspaced t) : blankLength false t = 0 := by
  cases t with
  | nil => rfl
  | cons c rest =>
    obtain ⟨unblank, visible⟩ := h c rfl
    simp [blankLength, visible, mt (isBlank_iff c).mp unblank]

/-- Inside a comment everything is passed. -/
theorem blankLength_inside (oneLine : .scalar '\n' ∉ inside) (more : Text) :
    blankLength true (inside ++ more) = inside.length + blankLength true more := by
  induction inside with
  | nil => simp
  | cons c inside ih =>
    obtain ⟨visible, oneLine⟩ := not_or.mp (mt List.mem_cons.mpr oneLine)
    have within : Text.isNewline c = false := by simpa [Text.isNewline] using Ne.symm visible
    rw [List.cons_append, blankLength, if_pos rfl, within, Bool.not_false, ih oneLine,
      List.length_cons, Nat.add_right_comm]

theorem Spacer.blankLength (h : Spacer more t) :
    blankLength false (t ++ more) = t.length + blankLength false more := by
  cases h with
  | @blank c blank =>
    have visible : c ≠ .scalar '#' := by
      rintro rfl
      exact absurd blank (by decide)
    simp [Literal.blankLength, visible, (isBlank_iff c).mpr blank, Nat.add_comm]
  | @comment inside oneLine =>
    have begun : Literal.blankLength false (.scalar '#' :: (inside ++ .scalar '\n' :: more)) =
        Literal.blankLength true (inside ++ .scalar '\n' :: more) + 1 := rfl
    have ended : Literal.blankLength true (.scalar '\n' :: more) =
        Literal.blankLength false more + 1 := rfl
    rw [List.cons_append, List.append_assoc, List.singleton_append, begun,
      blankLength_inside oneLine, ended, List.length_cons, List.length_append,
      List.length_singleton]
    omega
  | @lastComment inside oneLine last =>
    subst last
    have begun : Literal.blankLength false (.scalar '#' :: (inside ++ [])) =
        Literal.blankLength true (inside ++ []) + 1 := rfl
    rw [List.cons_append, begun, blankLength_inside oneLine]
    rfl

/-- All the blanks and comments in a row are passed. -/
theorem Spacing.blankLength (h : Spacing more t) :
    blankLength false (t ++ more) = t.length + blankLength false more := by
  induction h with
  | none => simp
  | cons first further ih =>
    rw [List.append_assoc, first.blankLength, ih, List.length_append, Nat.add_assoc]

/-- What stands between instructions would do so with nothing behind it. -/
theorem Spacing.alone (h : Spacing more t) : Spacing [] t := by
  induction h with
  | none => exact .none
  | cons first further ih =>
    refine .cons ?_ ih
    cases first with
    | blank blank => exact .blank blank
    | comment oneLine => exact .comment oneLine
    | lastComment oneLine last =>
      exact .lastComment oneLine ((List.append_nil _).trans (List.append_eq_nil_iff.mp last).1)

theorem exists_spacer (h : c ∈ blanks ∨ c = .scalar '#') (t : Text) :
    ∃ s more, c :: t = s ++ more ∧ Spacer more s ∧ more.length ≤ t.length := by
  obtain blank | rfl := h
  · exact ⟨[c], t, rfl, .blank blank, Nat.le_refl _⟩
  · by_cases newline : .scalar '\n' ∈ t
    · obtain ⟨inside, more, rfl, oneLine⟩ := List.eq_append_cons_of_mem newline
      refine ⟨_, more, by simp, .comment oneLine, ?_⟩
      rw [List.length_append, List.length_cons]
      omega
    · exact ⟨_, [], (List.append_nil _).symm, .lastComment newline rfl, Nat.zero_le _⟩

theorem exists_spacing (t : Text) :
    ∃ s more, t = s ++ more ∧ Spacing more s ∧ Unspaced more := by
  -- A comment may be of any length, so the induction is on what is left.
  generalize size : t.length = k
  induction k using Nat.strongRecOn generalizing t with
  | _ k ih =>
    cases t with
    | nil => exact ⟨[], [], rfl, .none, nofun⟩
    | cons c rest =>
      rw [List.length_cons] at size
      by_cases starts : c ∈ blanks ∨ c = .scalar '#'
      · obtain ⟨first, behind, split, spacer, shorter⟩ := exists_spacer starts rest
        obtain ⟨s, more, rfl, spacing, unspaced⟩ := ih behind.length (by omega) behind rfl
        exact ⟨first ++ s, more, by rw [split, List.append_assoc], .cons spacer spacing, unspaced⟩
      · refine ⟨[], c :: rest, rfl, .none, ?_⟩
        rintro _ ⟨⟩
        exact not_or.mp starts

/-- What is passed at the start of a text is blanks and comments, and what is left starts with
neither. -/
theorem spacing_blankLength (t : Text) :
    Spacing (t.drop (blankLength false t)) (t.take (blankLength false t)) ∧
      Unspaced (t.drop (blankLength false t)) := by
  obtain ⟨s, more, rfl, spacing, unspaced⟩ := exists_spacing t
  have length : blankLength false (s ++ more) = s.length := by
    rw [spacing.blankLength, blankLength_unspaced unspaced, Nat.add_zero]
  rw [length, List.drop_left, List.take_left]
  exact ⟨spacing, unspaced⟩

theorem resumes_blankLength (text : Text) (start : Nat) :
    Resumes text start (start + blankLength false (text.drop start)) := by
  obtain ⟨spacing, unspaced⟩ := spacing_blankLength (text.drop start)
  rw [List.drop_drop] at spacing unspaced
  refine ⟨Nat.le_add_right _ _, ?_, unspaced_drop.mp unspaced⟩
  rw [List.extract_eq_take_drop, Nat.add_sub_cancel_left]
  exact spacing

theorem Resumes.blankLength_le (h : Resumes text start p) :
    start + blankLength false (text.drop start) ≤ p := by
  have behind : (text.drop start).drop (p - start) = text.drop p := by
    rw [List.drop_drop, Nat.add_sub_cancel' h.onward]
  have split : text.drop start = text.extract start p ++ text.drop p := by
    rw [← behind]
    exact (List.take_append_drop _ _).symm
  have length : (text.extract start p).length ≤ p - start := List.length_take_le _ _
  have onward := h.onward
  -- What is passed from `start` on is what stands before `p`, and nothing behind it.
  rw [split, h.spacing.blankLength, blankLength_unspaced (unspaced_drop.mpr h.stops)]
  omega

/-- The blanks and comments are passed up to the first position where the text can go on. -/
theorem isLeast_resumes (text : Text) (start : Nat) :
    IsLeast {p | Resumes text start p} (start + blankLength false (text.drop start)) :=
  ⟨resumes_blankLength text start, fun _ resumes => resumes.blankLength_le⟩

theorem firstLine_inside (oneLine : .scalar '\n' ∉ inside) : Text.firstLine inside = inside := by
  refine List.takeWhile_eq_self_iff.mpr fun c mem => ?_
  have within : c ≠ .scalar '\n' := fun newline => oneLine (newline ▸ mem)
  simpa [Text.isNewline] using within

end Literal

namespace Cursor

open Literal

variable {c : Cursor} {t inside more : Text}

theorem line_of_newline (oneLine : .scalar '\n' ∉ inside)
    (rest : c.rest = inside ++ .scalar '\n' :: more) :
    c.line.2 = c.advance (inside.length + 1) := by
  have first : Text.firstLine (inside ++ .scalar '\n' :: more) = inside := by
    rw [firstLine_append (.line more), firstLine_inside oneLine]
  simp [line, rest, first]

theorem line_of_end (oneLine : .scalar '\n' ∉ c.rest) (within : c.index ≤ c.text.length) :
    c.line.2 = c.advance c.rest.length := by
  have last : c.index + c.rest.length = c.text.length := by
    rw [length_rest, Nat.add_sub_cancel' within]
  simp [line, firstLine_inside oneLine, toEnd, advance, last]

theorem skipBlank_of_unspaced (unspaced : Unspaced c.rest) : c.skipBlank = c := by
  rw [skipBlank, blankLength_unspaced unspaced]
  rfl

theorem skipBlank_skipBlank (c : Cursor) : c.skipBlank.skipBlank = c.skipBlank := by
  refine skipBlank_of_unspaced ?_
  rw [rest_skipBlank]
  exact (spacing_blankLength c.rest).2

theorem index_skipBlank_le (c : Cursor) : c.skipBlank.index ≤ max c.index c.text.length := by
  have passed := blankLength_le false c.rest
  rw [length_rest] at passed
  change c.index + blankLength false c.rest ≤ _
  omega

end Cursor

/-- Nothing replaces the blanks and the sign of a comment. -/
def Overrides.SpareSpacing (overrides : Overrides) : Prop :=
  ∀ c, c ∈ Literal.blanks ∨ c = .scalar '#' → overrides.find? [c] = none

namespace Machine

open Literal

variable {m : Machine} {f : Frame} {callers : List Frame} {t more : Text} {ch : CodePoint}

theorem ofName_blank (blank : ch ∈ blanks) : Instruction.ofName [ch] = .blank := by
  simp only [blanks, List.mem_cons, List.not_mem_nil, or_false] at blank
  obtain rfl | rfl | rfl := blank <;> rfl

theorem step_blank (host : Host) (calling : Calling) (spared : m.overrides.SpareSpacing)
    (frames : m.frames = f :: callers) (rest : f.cursor.rest = ch :: t) (blank : ch ∈ blanks) :
    ∃ journal, step host calling m = .ok none { m with
      journal, frames := f.begin (f.cursor.advance 1) :: callers } := by
  have pending : f.cursor.peek? = some ch := congrArg List.head? rest
  exact step_asking host calling frames pending (spared ch (.inl blank)) (ofName_blank blank) rfl
    fun _ _ _ => rfl

theorem step_comment (host : Host) (calling : Calling) (spared : m.overrides.SpareSpacing)
    (frames : m.frames = f :: callers) (rest : f.cursor.rest = .scalar '#' :: t) :
    ∃ journal, step host calling m = .ok none { m with
      journal, frames := f.begin (f.cursor.advance 1).line.2 :: callers } := by
  have pending : f.cursor.peek? = some (.scalar '#') := congrArg List.head? rest
  exact step_asking host calling frames pending (spared _ (.inr rfl)) rfl rfl fun _ _ _ => rfl

/-- A blank or a comment is passed in one step, which does nothing else. -/
theorem step_spacer (host : Host) (calling : Calling) (spared : m.overrides.SpareSpacing)
    (frames : m.frames = f :: callers) (rest : f.cursor.rest = t ++ more) (spacer : Spacer more t) :
    ∃ journal, step host calling m = .ok none { m with
      journal, frames := f.begin (f.cursor.advance t.length) :: callers } := by
  cases spacer with
  | blank blank => exact step_blank host calling spared frames rest blank
  | @comment inside oneLine =>
    have behind : (f.cursor.advance 1).rest = inside ++ .scalar '\n' :: more := by
      rw [Cursor.rest_advance, rest]
      simp
    obtain ⟨journal, stepped⟩ := step_comment host calling spared frames rest
    refine ⟨journal, ?_⟩
    rw [stepped, Cursor.line_of_newline oneLine behind, Cursor.advance_advance, List.length_cons,
      List.length_append, List.length_singleton, Nat.add_comm 1]
  | @lastComment inside oneLine last =>
    subst last
    rw [List.append_nil] at rest
    have behind : (f.cursor.advance 1).rest = inside := by
      rw [Cursor.rest_advance, rest]
      rfl
    have within : f.cursor.index + 1 ≤ f.cursor.text.length :=
      Cursor.index_lt_of_peek? (congrArg List.head? rest)
    obtain ⟨journal, stepped⟩ := step_comment host calling spared frames rest
    refine ⟨journal, ?_⟩
    rw [stepped, Cursor.line_of_end (behind ▸ oneLine) within, behind, Cursor.advance_advance,
      List.length_cons, Nat.add_comm 1]

/-- Blanks and comments are passed one after the other. -/
theorem steps_spacing (host : Host) (calling : Calling) (spared : m.overrides.SpareSpacing)
    (frames : m.frames = f :: callers) (rest : f.cursor.rest = t ++ more)
    (spacing : Spacing more t) :
    ∃ i journal position turned, steps host calling i m = .ok none { m with
      journal,
      frames := { f with cursor := f.cursor.advance t.length, position, turned } :: callers } ∧
        (turned → f.turned) := by
  induction spacing generalizing m f with
  | none =>
    refine ⟨0, m.journal, f.position, f.turned, ?_, id⟩
    -- No step is taken, so the frames are those that the machine has.
    change _ = EStateM.Result.ok none { m with frames := f :: callers }
    rw [← frames]
    rfl
  | @cons t rest' first further ih =>
    rw [List.append_assoc] at rest
    obtain ⟨journal, stepped⟩ := step_spacer host calling spared frames rest first
    have left : (f.cursor.advance t.length).rest = rest' ++ more := by
      rw [Cursor.rest_advance, rest, List.drop_left]
    obtain ⟨i, journal', position, turned, walked, turns⟩ :=
      ih (m := { m with journal, frames := f.begin (f.cursor.advance t.length) :: callers }) spared
        rfl left
    refine ⟨i + 1, journal', position, turned, ?_, fun turned => absurd (turns turned) nofun⟩
    rw [steps_succ stepped, walked]
    simp only [Frame.begin, Cursor.advance_advance, List.length_append]

/-- A machine that executes what a cursor skips comes where the cursor comes. -/
theorem steps_skipBlank (host : Host) (calling : Calling) (spared : m.overrides.SpareSpacing)
    (frames : m.frames = f :: callers) :
    ∃ i journal position turned, steps host calling i m = .ok none { m with
      journal, frames := { f with cursor := f.cursor.skipBlank, position, turned } :: callers } ∧
        (turned → f.turned) := by
  obtain ⟨spacing, -⟩ := spacing_blankLength f.cursor.rest
  have walks := steps_spacing host calling spared frames (List.take_append_drop _ _).symm spacing
  rwa [List.length_take_of_le (blankLength_le false f.cursor.rest)] at walks

/-- A machine that has nothing but blanks and comments in a frame ends the frame. -/
theorem steps_spacing_end (host : Host) (calling : Calling) (spared : m.overrides.SpareSpacing)
    (frames : m.frames = f :: callers) (spacing : Spacing [] f.cursor.rest) :
    ∃ i journal, steps host calling i m =
      .ok (over? .okay callers) { m with journal, frames := callers } := by
  obtain ⟨i, journal, position, turned, walked, -⟩ :=
    steps_spacing host calling spared frames (List.append_nil _).symm spacing
  refine ⟨i + 1, journal, ?_⟩
  have ended : (f.cursor.advance f.cursor.rest.length).peek? = none := by
    rw [Cursor.peek?, Cursor.rest_advance, List.drop_length]
    rfl
  rw [steps_add walked, steps_one, step_of_end rfl ended]

/-- A cursor skips the blanks and comments that it stands at: it comes to the first position behind
nothing but these where something else stands or the text has ended, and from there it skips nothing
more. A machine that executes them instead comes to that position as well, and one that executes
them as a text of their own ends this text, with the same store and without an effect on the
host. -/
theorem spacing_skipped (c : Cursor) :
    ∃ p, c.skipBlank = ⟨c.text, p⟩ ∧ IsLeast {p | Resumes c.text c.index p} p ∧
      p ≤ max c.index c.text.length ∧ c.skipBlank.skipBlank = c.skipBlank ∧
      ∀ (host : Host) (calling : Calling) (m : Machine) (frame : Frame) (callers : List Frame),
        m.overrides.SpareSpacing → m.frames = frame :: callers →
        (frame.cursor = c → ∃ i journal position turned,
          steps host calling i m = .ok none { m with
            journal,
            frames := { frame with cursor := c.skipBlank, position, turned } :: callers } ∧
          (turned → frame.turned)) ∧
        (frame.cursor = ⟨c.text.extract c.index p, 0⟩ → ∃ i journal,
          steps host calling i m =
            .ok (over? .okay callers) { m with journal, frames := callers }) := by
  have least := isLeast_resumes c.text c.index
  refine ⟨_, rfl, least, c.index_skipBlank_le, c.skipBlank_skipBlank, ?_⟩
  intro host calling m frame callers spared frames
  constructor
  · rintro rfl
    exact steps_skipBlank host calling spared frames
  · intro alone
    have spacing : Spacing [] frame.cursor.rest := by
      rw [alone]
      exact least.1.spacing.alone
    exact steps_spacing_end host calling spared frames spacing

/-- In `1x # a`, a new line, a tab and `# b`, the call skips everything behind it. -/
theorem spacing_skipped_comments :
    let c : Cursor := ⟨Text.ofString "1x # a\n\t# b", 2⟩
    let frame : Frame := { name := [], cursor := c }
    let m : Machine := { frames := [frame] }
    let m' : Machine := { frames := [Frame.ofText [] (Text.ofString " # a\n\t# b"), frame] }
    c.skipBlank = ⟨c.text, 11⟩ ∧ IsLeast {p | Resumes c.text 2 p} 11 ∧
      m.overrides.SpareSpacing ∧ m'.overrides.SpareSpacing ∧
      (∃ i journal position turned, steps {} .flat i m = .ok none { m with
        journal, frames := [{ frame with cursor := ⟨c.text, 11⟩, position, turned }] }) ∧
      ∃ i journal, steps {} .flat i m' = .ok none { m' with journal, frames := [frame] } := by
  intro c frame m m'
  obtain ⟨p, skipped, least, -, -, executes⟩ := spacing_skipped c
  have index : c.skipBlank.index = 11 := by decide +kernel
  obtain rfl : p = 11 := (congrArg Cursor.index skipped).symm.trans index
  have spared : Overrides.SpareSpacing {} := fun _ _ => rfl
  obtain ⟨i, journal, position, turned, walked, -⟩ :=
    (executes {} .flat m frame [] spared rfl).1 rfl
  rw [skipped] at walked
  have ended := (executes {} .flat m' _ [frame] spared rfl).2 (by decide +kernel)
  exact ⟨skipped, least, spared, spared, ⟨i, journal, position, turned, walked⟩, ended⟩

end Machine

end DeskCalculator
