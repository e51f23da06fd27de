import DeskCalculator.Proofs.Cursor
import Mathlib.Algebra.GroupWithZero.Nat
import Mathlib.Data.List.Induction
import Mathlib.Data.Prod.Lex
import Mathlib.Order.Interval.Set.Defs
import Mathlib.Order.Monotone.Defs

/-!
Where a position of a text is: on a line that is told by the lines before it, each with its newline,
and in a column that is told by what stands before it on its line. The lines are those that the text
is split into at its newlines, and a position further on is further down, or further right on the
same line.
-/

namespace DeskCalculator.Text

open Literal (OnNewLine)

/-- Lines, each with its newline. -/
def ended (lines : List Text) : Text := lines.flatMap (· ++ [.scalar '\n'])

/-- The position `index` of a text is in the given column of `statement`, which is the line with the
given number. Lines and columns count from one, and the last column is behind the line. -/
def Stands (t : Text) (index line column : Nat) (statement : Text) : Prop :=
  ∃ lines more, t = ended lines ++ statement ++ more ∧ OnNewLine more ∧
    (∀ l ∈ statement :: lines, ∀ c ∈ l, isNewline c = false) ∧ line = lines.length + 1 ∧
      index + 1 = (ended lines).length + column ∧ 1 ≤ column ∧ column ≤ statement.length + 1

theorem lastLine_append (t : Text) (c : CodePoint) :
    lastLine (t ++ [c]) = if isNewline c then [] else lastLine t ++ [c] := by
  cases h : isNewline c <;> simp [lastLine, h]

/-- A text is made of whole lines and the last one. -/
theorem exists_lines (t : Text) :
    ∃ lines, t = ended lines ++ lastLine t ∧ lines.length = t.countP isNewline ∧
      ∀ l ∈ lastLine t :: lines, ∀ c ∈ l, isNewline c = false := by
  induction t using List.reverseRecOn with
  | nil => exact ⟨[], rfl, rfl, by simp [lastLine]⟩
  | append_singleton t c ih =>
    obtain ⟨lines, whole, counted, unbroken⟩ := ih
    rw [lastLine_append]
    cases newline : isNewline c with
    | true =>
      obtain rfl : c = .scalar '\n' := by simpa [isNewline] using newline
      refine ⟨lines ++ [lastLine t], ?_, ?_, ?_⟩
      · conv_lhs => rw [whole]
        simp [ended]
      · simp [counted, newline]
      · intro l mem
        have among : l = [] ∨ l ∈ lastLine t :: lines := by
          simp only [if_true, List.mem_cons, List.mem_append, List.not_mem_nil, or_false] at mem ⊢
          tauto
        obtain rfl | mem := among
        · simp
        · exact unbroken l mem
    | false =>
      refine ⟨lines, ?_, by simp [counted, newline], ?_⟩
      · conv_lhs => rw [whole]
        simp
      · simp only [Bool.false_eq_true, if_false, List.forall_mem_cons, List.forall_mem_append]
          at unbroken ⊢
        exact ⟨⟨unbroken.1, newline, by simp⟩, unbroken.2⟩

/-- A line ends at a newline, or with its text. -/
theorem exists_firstLine (t : Text) :
    ∃ more, t = firstLine t ++ more ∧ OnNewLine more ∧ ∀ c ∈ firstLine t, isNewline c = false := by
  induction t with
  | nil => exact ⟨[], rfl, .nothing, by simp [firstLine]⟩
  | cons c t ih =>
    cases newline : isNewline c with
    | true =>
      obtain rfl : c = .scalar '\n' := by simpa [isNewline] using newline
      exact ⟨_, rfl, .line t, by simp [firstLine, newline]⟩
    | false =>
      obtain ⟨more, whole, onNewLine, unbroken⟩ := ih
      have longer : firstLine (c :: t) = c :: firstLine t := by simp [firstLine, newline]
      refine ⟨more, ?_, onNewLine, ?_⟩
      · rw [longer, List.cons_append, ← whole]
      · rw [longer]
        exact List.forall_mem_cons.mpr ⟨newline, unbroken⟩

/-- The location of a position is where it stands. -/
theorem stands_location {t : Text} {index : Nat} (le : index ≤ t.length) :
    t.Stands index (location t index).1 (location t index).2 (lineAt t index) := by
  obtain ⟨lines, before, counted, unbroken⟩ := exists_lines (t.take index)
  obtain ⟨more, after, onNewLine, unbroken'⟩ := exists_firstLine (t.drop index)
  refine ⟨lines, more, ?_, onNewLine, ?_, ?_, ?_, Nat.succ_pos _, ?_⟩
  · calc
      t = t.take index ++ t.drop index := (List.take_append_drop index t).symm
      _ = ended lines ++ lastLine (t.take index) ++ (firstLine (t.drop index) ++ more) :=
        congrArg₂ (· ++ ·) before after
      _ = ended lines ++ lineAt t index ++ more := by simp [lineAt]
  · simp only [List.forall_mem_cons, lineAt, List.forall_mem_append] at unbroken ⊢
    exact ⟨⟨unbroken.1, unbroken'⟩, unbroken.2⟩
  · simp [location, counted]
  · have length := congrArg List.length before
    rw [List.length_take_of_le le, List.length_append] at length
    simp only [location]
    omega
  · simp only [location, lineAt, List.length_append]
    omega

/-- A text split at every newline. -/
def lines (t : Text) : List Text := t.splitOn (.scalar '\n')

/-- The position at which the line with the given number begins. -/
def lineStart (t : Text) (line : Nat) : Nat :=
  ((t.lines.take (line - 1)).map (·.length + 1)).sum

theorem lines_of_unbroken {t : Text} (unbroken : ∀ c ∈ t, isNewline c = false) : t.lines = [t] :=
  List.splitOnP_eq_singleton unbroken

theorem lines_append_newline (t more : Text) :
    (t ++ .scalar '\n' :: more).lines = t.lines ++ lines more :=
  List.splitOnP_append_cons t more rfl

theorem lines_ended {ls : List Text} (unbroken : ∀ l ∈ ls, ∀ c ∈ l, isNewline c = false)
    (t : Text) : (ended ls ++ t).lines = ls ++ t.lines := by
  induction ls with
  | nil => rfl
  | cons l ls ih =>
    obtain ⟨first, others⟩ := List.forall_mem_cons.mp unbroken
    have apart : ended (l :: ls) ++ t = l ++ .scalar '\n' :: (ended ls ++ t) := by
      simp [ended]
    rw [apart, lines_append_newline, lines_of_unbroken first, ih others, List.singleton_append,
      List.cons_append]

/-- The line in front of a newline, or of the end, is one of the lines. -/
theorem exists_lines_append {statement more : Text} (onNewLine : OnNewLine more)
    (unbroken : ∀ c ∈ statement, isNewline c = false) :
    ∃ others, (statement ++ more).lines = statement :: others := by
  cases onNewLine with
  | nothing => exact ⟨[], by rw [List.append_nil, lines_of_unbroken unbroken]⟩
  | line more =>
    exact ⟨lines more, by rw [lines_append_newline, lines_of_unbroken unbroken]; rfl⟩

theorem length_ended (ls : List Text) : (ended ls).length = (ls.map (·.length + 1)).sum := by
  simp [ended, List.length_flatMap]

/-- Where a position stands is told by the lines. -/
theorem Stands.lines {t statement : Text} {index line column : Nat}
    (h : t.Stands index line column statement) :
    1 ≤ line ∧ t.lines[line - 1]? = some statement ∧ 1 ≤ column ∧ column ≤ statement.length + 1 ∧
      index = t.lineStart line + (column - 1) := by
  obtain ⟨before, more, whole, onNewLine, unbroken, rfl, place, first, last⟩ := h
  obtain ⟨unbroken, unbroken'⟩ := List.forall_mem_cons.mp unbroken
  obtain ⟨after, split⟩ := exists_lines_append onNewLine unbroken
  have split : t.lines = before ++ statement :: after := by
    rw [whole, List.append_assoc, lines_ended unbroken', split]
  have number : before.length + 1 - 1 = before.length := rfl
  refine ⟨Nat.succ_pos _, ?_, first, last, ?_⟩
  · rw [split, number, List.getElem?_append_right (Nat.le_refl _), Nat.sub_self]
    rfl
  · rw [lineStart, split, number, List.take_left, ← length_ended]
    omega

theorem location_min (t : Text) (index : Nat) :
    location t (min index t.length) = location t index := by
  simp only [location, ← List.take_eq_take_min]

theorem lineAt_min (t : Text) (index : Nat) : lineAt t (min index t.length) = lineAt t index := by
  obtain within | past := Nat.le_total index t.length
  · rw [Nat.min_eq_left within]
  · rw [Nat.min_eq_right past, lineAt, lineAt, List.take_of_length_le past, List.take_length,
      List.drop_of_length_le past, List.drop_length]

/-- The place of a position among the lines. A position past the end is in the place of the end. -/
theorem lines_location (t : Text) (index : Nat) :
    1 ≤ (location t index).1 ∧ t.lines[(location t index).1 - 1]? = some (lineAt t index) ∧
      1 ≤ (location t index).2 ∧ (location t index).2 ≤ (lineAt t index).length + 1 ∧
      min index t.length = t.lineStart (location t index).1 + ((location t index).2 - 1) := by
  have stands := stands_location (Nat.min_le_right index t.length)
  rw [location_min, lineAt_min] at stands
  exact stands.lines

/-- A line begins behind the newline of the one before it. -/
theorem lineStart_succ {t statement : Text} {line : Nat} (first : 1 ≤ line)
    (found : t.lines[line - 1]? = some statement) :
    t.lineStart (line + 1) = t.lineStart line + (statement.length + 1) := by
  obtain ⟨inside, rfl⟩ := List.getElem?_eq_some_iff.mp found
  have next : line + 1 - 1 = line - 1 + 1 := by omega
  rw [lineStart, next, ← List.take_append_getElem inside, List.map_append, List.sum_append]
  simp [lineStart]

theorem lineStart_mono (t : Text) {line line' : Nat} (le : line ≤ line') :
    t.lineStart line ≤ t.lineStart line' := by
  have front : t.lines.take (line - 1) <+: t.lines.take (line' - 1) :=
    List.take_prefix_take_left (by omega)
  obtain ⟨between, all⟩ := front
  rw [lineStart, lineStart, ← all, List.map_append, List.sum_append]
  exact Nat.le_add_right _ _

/-- A place that is further up, or further left on the same line, is that of an earlier position. -/
theorem min_lt_of_location_lt {t : Text} {i j : Nat}
    (lt : toLex (location t i) < toLex (location t j)) : min i t.length < min j t.length := by
  obtain ⟨first, found, left, right, place⟩ := lines_location t i
  obtain ⟨-, -, left', -, place'⟩ := lines_location t j
  obtain above | ⟨same, before⟩ := Prod.Lex.toLex_lt_toLex.mp lt
  · have behind := lineStart_mono t (Nat.succ_le_of_lt above)
    rw [Nat.succ_eq_add_one, lineStart_succ first found] at behind
    omega
  · rw [← same] at place'
    omega

/-- Every position is on one of the lines that the text is split into at its newlines, or behind one,
and it is the sum of the lines before it, each with its newline, and of the characters before it on
its own; a position past the end is taken for the end. So positions of a text have places of their
own, and these go down the lines, and to the right on each, as the positions go on. -/
theorem located_on_lines (t : Text) :
    (∀ index,
      let (line, column) := location t index
      1 ≤ line ∧ line ≤ t.lines.length ∧ t.lines[line - 1]? = some (lineAt t index) ∧
        1 ≤ column ∧ column ≤ (lineAt t index).length + 1 ∧
        min index t.length =
          ((t.lines.take (line - 1)).map (·.length + 1)).sum + (column - 1)) ∧
    Set.InjOn (location t) (Set.Iic t.length) ∧
    StrictMonoOn (fun index => toLex (location t index)) (Set.Iic t.length) := by
  have ordered : StrictMonoOn (fun index => toLex (location t index)) (Set.Iic t.length) := by
    intro i within j within' lt
    by_contra notBefore
    -- Else the later position would be in the same place, or in an earlier one.
    have back : min j t.length ≤ min i t.length := by
      obtain same | earlier := (not_lt.mp notBefore).eq_or_lt
      · have place := (lines_location t i).2.2.2.2
        have place' := (lines_location t j).2.2.2.2
        rw [toLex_inj.mp same] at place'
        exact Nat.le_of_eq (place'.trans place.symm)
      · exact Nat.le_of_lt (min_lt_of_location_lt earlier)
    rw [Nat.min_eq_left within, Nat.min_eq_left within'] at back
    exact Nat.not_le_of_lt lt back
  refine ⟨fun index => ?_, fun i within j within' same => ?_, ordered⟩
  · obtain ⟨first, found, left, right, place⟩ := lines_location t index
    have inside := (List.getElem?_eq_some_iff.mp found).1
    exact ⟨first, Nat.le_of_pred_lt inside, found, left, right, place⟩
  · exact ordered.injOn within within' (congrArg toLex same)

/-- In `5p`, an empty line and `_3`, whatever is past the end is behind the last line, and the empty
line is in front of it. -/
theorem located_on_lines_past_end :
    let t : Text := Text.ofString "5p\n\n_3"
    location t 40 = (3, 3) ∧ t.lines[2]? = some (lineAt t 40) ∧
      toLex (location t 3) < toLex (location t 4) := by
  intro t
  obtain ⟨places, -, ordered⟩ := located_on_lines t
  obtain ⟨-, -, found, -⟩ := places 40
  have within : ∀ i ≤ 6, i ∈ Set.Iic t.length := fun _ le => le
  exact ⟨rfl, found, ordered (within 3 (by decide)) (within 4 (by decide)) (by decide)⟩

end DeskCalculator.Text
