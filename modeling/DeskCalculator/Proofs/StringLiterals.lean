import DeskCalculator.Proofs.Inlining
import DeskCalculator.Proofs.Tokens

/-!
Where a string ends. It ends at the first bracket with which more brackets have been closed than
opened behind its own, so that what it holds is balanced; without such a bracket it holds the rest
of the text. The text of a string is pushed as it stands, and what follows the bracket is executed
next.
-/

namespace DeskCalculator

namespace Literal

/-- From the position `start` to the position `k`, and on it, one bracket more is closed than
opened. -/
def Exceeds (text : Text) (start k : Nat) : Prop :=
  start ≤ k ∧ k < text.length ∧ (text.extract start (k + 1)).count (.scalar ']') =
    (text.extract start (k + 1)).count (.scalar '[') + 1

instance (text : Text) (start k : Nat) : Decidable (Exceeds text start k) :=
  inferInstanceAs (Decidable (_ ∧ _ ∧ _))

/-- The position `k` is the first where one bracket more is closed than opened. -/
structure ExceedsFirst (text : Text) (start k : Nat) : Prop where
  exceeds : Exceeds text start k
  first : ∀ j < k, ¬ Exceeds text start j

theorem ExceedsFirst.eq {text : Text} {start j k : Nat} (h : ExceedsFirst text start j)
    (h' : ExceedsFirst text start k) : j = k := by
  refine Nat.le_antisymm (Nat.le_of_not_lt fun lt => ?_) (Nat.le_of_not_lt fun lt => ?_)
  · exact h.first k lt h'.exceeds
  · exact h'.first j lt h.exceeds

variable {t : Text} {j k : Nat}

/-- How many brackets the first characters of a text open. -/
def opened (t : Text) (k : Nat) : Nat := (t.take k).count (.scalar '[')

/-- How many brackets they close. -/
def closed (t : Text) (k : Nat) : Nat := (t.take k).count (.scalar ']')

theorem opened_le (t : Text) (k : Nat) : opened t k ≤ opened t (k + 1) :=
  (List.take_prefix_take_left (Nat.le_succ k)).sublist.count_le _

theorem closed_succ_le (t : Text) (k : Nat) : closed t (k + 1) ≤ closed t k + 1 := by
  unfold closed
  rw [List.take_add_one, List.count_append]
  have one : t[k]?.toList.count (.scalar ']') ≤ 1 :=
    Nat.le_trans List.count_le_length Option.length_toList_le
  exact Nat.add_le_add_left one _

/-- As long as no more brackets are closed than opened, the characters read are so too. -/
theorem closed_le (before : ∀ i < k, closed t (i + 1) ≤ opened t (i + 1)) {i : Nat} (le : i ≤ k) :
    closed t i ≤ opened t i := by
  cases i with
  | zero => exact Nat.le_refl 0
  | succ i => exact before i le

/-- The bracket with which too many are closed closes just one too many. -/
theorem exceeds_of_closing? (h : closing? 0 t = some k) :
    k < t.length ∧ closed t (k + 1) = opened t (k + 1) + 1 ∧
      ∀ i ≤ k, closed t i ≤ opened t i := by
  rw [Token.closing?_zero, List.find?_range_eq_some] at h
  obtain ⟨more, within, first⟩ := h
  have before : ∀ i < k, closed t (i + 1) ≤ opened t (i + 1) := by
    intro i lt
    simpa [Token.closes, opened, closed] using first i lt
  have more : opened t (k + 1) < closed t (k + 1) := of_decide_eq_true more
  -- One character closes one bracket at most, so the excess is no more than one.
  have level := closed_le before (Nat.le_refl k)
  have grown := closed_succ_le t k
  have kept := opened_le t k
  exact ⟨List.mem_range.mp within, by omega, fun i le => closed_le before le⟩

theorem balanced_of_closing? (h : closing? 0 t = some k) : Balanced (t.take k) := by
  obtain ⟨-, one, level⟩ := exceeds_of_closing? h
  constructor
  · intro s start
    obtain ⟨i, le, rfl⟩ : ∃ i ≤ k, s = t.take i := by
      refine ⟨s.length, Nat.le_trans start.length_le (List.length_take_le k t), ?_⟩
      exact List.prefix_iff_eq_take.mp (start.trans (List.take_prefix k t))
    exact level i le
  · have most := level k (Nat.le_refl k)
    have grown := closed_succ_le t k
    have kept := opened_le t k
    change closed t k = opened t k
    omega

theorem exceeds_iff {text : Text} {start : Nat} :
    Exceeds text start (start + j) ↔ j < (text.drop start).length ∧
      closed (text.drop start) (j + 1) = opened (text.drop start) (j + 1) + 1 := by
  have part : start + j + 1 - start = j + 1 := by omega
  rw [Exceeds, List.extract, part, List.length_drop]
  exact ⟨fun ⟨_, within, one⟩ => ⟨by omega, one⟩, fun ⟨within, one⟩ => ⟨by omega, by omega, one⟩⟩

/-- The closing bracket of a string is the first that exceeds. -/
theorem exceedsFirst_of_closing? {text : Text} {start : Nat}
    (h : closing? 0 (text.drop start) = some j) : ExceedsFirst text start (start + j) := by
  obtain ⟨within, one, level⟩ := exceeds_of_closing? h
  refine ⟨exceeds_iff.mpr ⟨within, one⟩, fun i lt exceeds => ?_⟩
  obtain ⟨i, rfl⟩ := Nat.exists_eq_add_of_le exceeds.1
  have few := level (i + 1) (by omega)
  have many := (exceeds_iff.mp exceeds).2
  omega

theorem not_exceeds_of_closing? {text : Text} {start : Nat}
    (h : closing? 0 (text.drop start) = none) (k : Nat) : ¬ Exceeds text start k := by
  rw [Token.closing?_zero, List.find?_range_eq_none] at h
  intro exceeds
  obtain ⟨j, rfl⟩ := Nat.exists_eq_add_of_le exceeds.1
  obtain ⟨within, one⟩ := exceeds_iff.mp exceeds
  have few : closed (text.drop start) (j + 1) ≤ opened (text.drop start) (j + 1) := by
    simpa [Token.closes, opened, closed] using h j within
  omega

end Literal

namespace Cursor

open Literal

theorem string_of_closing? {c : Cursor} {j : Nat} (h : closing? 0 c.rest = some j) :
    c.string = (c.text.extract c.index (c.index + j), ⟨c.text, c.index + j + 1⟩) := by
  rw [string, h, List.extract, Nat.add_sub_cancel_left]
  rfl

/-- A string is read up to the first bracket that closes one more than have been opened behind its
own, and it is balanced; if there is none it is read to the end of the text. So a balanced text
between brackets is read as it is, and what follows is left to be read. A step of a machine at the
opening bracket pushes the string and comes to stand behind it. -/
theorem string_delimited (c : Cursor) :
    (∀ k, ExceedsFirst c.text c.index k →
        c.string = (c.text.extract c.index k, ⟨c.text, k + 1⟩) ∧
          Balanced (c.text.extract c.index k)) ∧
      ((∀ k, ¬ ExceedsFirst c.text c.index k) →
        c.string = (c.text.drop c.index, ⟨c.text, c.text.length⟩)) ∧
      (∀ inside more, Balanced inside →
        let read := string ⟨inside ++ .scalar ']' :: more, 0⟩
        read.1 = inside ∧ read.2.rest = more) ∧
      ∀ (host : Host) (calling : Calling) (m : Machine) (frame : Frame) (callers : List Frame),
        m.overrides = {} → m.frames = frame :: callers →
        frame.cursor.peek? = some (.scalar '[') → frame.cursor.advance 1 = c →
        ∃ journal, m.step host calling = .ok none { m with
          store := { m.store with stack := .text c.string.1 :: m.store.stack }, journal,
          frames := { frame.begin c with cursor := c.string.2 } :: callers } := by
  refine ⟨fun k first => ?_, fun none => ?_, fun inside more balanced => ?_, ?_⟩
  · cases closed : closing? 0 c.rest with
    | none => exact absurd first.exceeds (not_exceeds_of_closing? closed k)
    | some j =>
      obtain rfl := (exceedsFirst_of_closing? closed).eq first
      refine ⟨string_of_closing? closed, ?_⟩
      rw [List.extract, Nat.add_sub_cancel_left]
      exact balanced_of_closing? closed
  · cases closed : closing? 0 c.rest with
    | none => rw [string, closed]; rfl
    | some j => exact absurd (exceedsFirst_of_closing? closed) (none _)
  · have closed := balanced.closing? more
    have whole : rest ⟨inside ++ .scalar ']' :: more, 0⟩ = inside ++ .scalar ']' :: more := rfl
    simp only [string, whole, closed, rest_advance, List.take_left, List.drop_append]
    simp
  · rintro host calling m frame callers builtIn frames opens rfl
    exact Machine.step_string host calling builtIn frames opens

/-- In `x[a[b]c]d` the string that is open at the third character ends before the second closing
bracket. -/
theorem string_delimited_nested :
    ExceedsFirst (Text.ofString "x[a[b]c]d") 2 7 ∧
      string ⟨Text.ofString "x[a[b]c]d", 2⟩ =
        (Text.ofString "a[b]c", ⟨Text.ofString "x[a[b]c]d", 8⟩) ∧
      Balanced (Text.ofString "a[b]c") := by
  have first : ExceedsFirst (Text.ofString "x[a[b]c]d") 2 7 :=
    ⟨by decide +kernel, by decide +kernel⟩
  have inside : (Text.ofString "x[a[b]c]d").extract 2 7 = Text.ofString "a[b]c" := by decide
  obtain ⟨read, balanced⟩ := (string_delimited ⟨Text.ofString "x[a[b]c]d", 2⟩).1 7 first
  rw [inside] at read balanced
  exact ⟨first, read, balanced⟩

end Cursor

end DeskCalculator
