import DeskCalculator.Literal
import Mathlib.Data.List.TakeWhile

/-!
Numbers and their digits. The digits of a number in a base stand for the number, and a program that
writes an integer with them has it read back in the same input base.
-/

namespace DeskCalculator

namespace Numeral

theorem value_append (base : Int) (ds : List Nat) (d : Nat) :
    value base (ds ++ [d]) = value base ds * base + d := by
  simp [value]

variable {base : Nat}

theorem digits_lt (h : 2 ≤ base) (n : Nat) : ∀ d ∈ digits base n, d < base := by
  induction n using Nat.strongRecOn with
  | _ n ih =>
    by_cases small : n < base
    · simpa [digits_of_lt h small] using small
    · rw [digits_of_le h (Nat.not_lt.mp small)]
      intro d mem
      obtain mem | mem := List.mem_append.mp mem
      · exact ih (n / base) (Nat.div_lt_self (by omega) h) d mem
      · rw [List.mem_singleton.mp mem]
        exact Nat.mod_lt n (by omega)

theorem value_digits (h : 2 ≤ base) (n : Nat) : value base (digits base n) = n := by
  induction n using Nat.strongRecOn with
  | _ n ih =>
    by_cases small : n < base
    · simp [digits_of_lt h small, value]
    · rw [digits_of_le h (Nat.not_lt.mp small), value_append,
        ih (n / base) (Nat.div_lt_self (by omega) h)]
      exact_mod_cast Nat.div_add_mod' n base

theorem digits_ne_nil (h : 2 ≤ base) (n : Nat) : digits base n ≠ [] := by
  by_cases small : n < base
  · simp [digits_of_lt h small]
  · simp [digits_of_le h (Nat.not_lt.mp small)]

/-- How a number is printed in a base above one. -/
theorem renderMagnitude_natCast (h : 2 ≤ base) (n : Nat) :
    renderMagnitude base n =
      if base ≤ 36 then .ok ((digits base n).map symbol)
      else if decimalLimit ≤ base - 1 then .error .numeralTooLong
      else .ok ((digits base n).flatMap (group (decimal (base - 1)).length)) := by
  have above : 2 ≤ (base : Int) := by omega
  have few : (base : Int) ≤ 36 ↔ base ≤ 36 := by omega
  have largest : ((base : Int) - 1).toNat = base - 1 := by omega
  simp only [renderMagnitude, dif_pos above, few, largest, Int.toNat_natCast]

/-- A digit that a program may write is read back. -/
theorem digit?_symbol : ∀ d < 16, digit? (symbol d) = some d := by
  decide

/-- A number as programs write it. -/
def magnitude (base n : Nat) (h : 2 ≤ base) : Text := (digits base n).map symbol

/-- An integer as programs write it, `_` in front of it when it is below zero. -/
def written (base : Nat) (n : Int) (h : 2 ≤ base) : Text :=
  if n < 0 then .scalar '_' :: magnitude base n.natAbs h else magnitude base n.natAbs h

theorem filterMap_symbol {ds : List Nat} (small : ∀ d ∈ ds, d < 16) :
    (ds.map symbol).filterMap digit? = ds := by
  induction ds with
  | nil => rfl
  | cons d ds ih =>
    rw [List.forall_mem_cons] at small
    rw [List.map_cons, List.filterMap_cons_some (digit?_symbol d small.1), ih small.2]

section reading
variable (h : 2 ≤ base ∧ base ≤ 16)
include h

theorem digit?_magnitude {n : Nat} {c : CodePoint} (mem : c ∈ magnitude base n h.1) :
    ∃ d < base, digit? c = some d := by
  obtain ⟨d, written, rfl⟩ := List.mem_map.mp mem
  have lt := digits_lt h.1 n d written
  exact ⟨d, lt, digit?_symbol d (by omega)⟩

theorem leading_magnitude (n : Nat) : leading base (magnitude base n h.1) = n := by
  have fitting : ∀ c ∈ magnitude base n h.1, fits base c := by
    intro c mem
    obtain ⟨d, lt, found⟩ := digit?_magnitude h mem
    simpa [fits, found] using lt
  have whole : (magnitude base n h.1).takeWhile (fits base) = magnitude base n h.1 :=
    List.takeWhile_eq_self_iff.mpr fitting
  have read : (magnitude base n h.1).filterMap digit? = digits base n h.1 :=
    filterMap_symbol fun d mem => Nat.lt_of_lt_of_le (digits_lt h.1 n d mem) h.2
  rw [leading, whole, read, value_digits h.1]

theorem exists_magnitude_cons (n : Nat) :
    ∃ c t, magnitude base n h.1 = c :: t ∧ c ≠ .scalar '_' := by
  cases written : magnitude base n h.1 with
  | nil => exact absurd (List.map_eq_nil_iff.mp written) (digits_ne_nil h.1 n)
  | cons c t =>
    refine ⟨c, t, rfl, ?_⟩
    rintro rfl
    obtain ⟨d, -, found⟩ := digit?_magnitude h (n := n) (written ▸ List.mem_cons_self)
    cases found

end reading

end Numeral

namespace Literal

open Numeral

variable {base : Nat} (h : 2 ≤ base ∧ base ≤ 16)
include h

theorem isNumeralBody_magnitude {n : Nat} {c : CodePoint} (mem : c ∈ magnitude base n h.1) :
    isNumeralBody c := by
  obtain ⟨d, -, found⟩ := digit?_magnitude h mem
  simp [isNumeralBody, found]

theorem unsignedNumber_magnitude (n : Nat) :
    unsignedNumber base (magnitude base n h.1) = .int n := by
  have whole : (magnitude base n h.1).contains (.scalar '.') = false := by
    rw [List.contains_eq_mem, decide_eq_false_iff_not]
    intro point
    obtain ⟨d, -, found⟩ := digit?_magnitude h point
    cases found
  rw [unsignedNumber, whole, leading_magnitude h]
  rfl

omit h in
theorem number_of_ne {base : Int} {c : CodePoint} (unsigned : c ≠ .scalar '_') (t : Text) :
    number base (c :: t) = unsignedNumber base (c :: t) := by
  unfold number
  split
  · rename_i signed
    exact absurd (List.cons.inj signed).1 unsigned
  · rfl

omit h in
theorem numeralRun_of_ne {c : CodePoint} (unsigned : c ≠ .scalar '_') (t : Text) :
    numeralRun (c :: t) = (c :: t).takeWhile isNumeralBody := by
  unfold numeralRun
  split
  · rename_i signed
    exact absurd (List.cons.inj signed).1 unsigned
  · rfl

/-- A written integer is read as itself. -/
theorem number_written (n : Int) : number base (written base n h.1) = .int n := by
  unfold written
  split
  · rw [number, unsignedNumber_magnitude h, negated]
    congr 1
    omega
  · obtain ⟨c, t, digits, unsigned⟩ := exists_magnitude_cons h n.natAbs
    rw [digits, number_of_ne unsigned, ← digits, unsignedNumber_magnitude h]
    congr 1
    omega

/-- A written integer ends where something else begins, or where the text ends. -/
theorem numeralRun_written_append (n : Int) {t : Text} (other : ∀ c ∈ t.head?, isNumeralBody c = false) :
    numeralRun (written base n h.1 ++ t) = written base n h.1 := by
  have ended : t.takeWhile isNumeralBody = [] := by
    cases t with
    | nil => rfl
    | cons c t => exact List.takeWhile_cons_of_neg (by simp [other c rfl])
  have taken (n : Nat) :
      (magnitude base n h.1 ++ t).takeWhile isNumeralBody = magnitude base n h.1 := by
    rw [List.takeWhile_append_of_pos fun c mem => isNumeralBody_magnitude h mem, ended,
      List.append_nil]
  unfold written
  split
  · rw [List.cons_append, numeralRun, taken]
  · obtain ⟨c, more, digits, unsigned⟩ := exists_magnitude_cons h n.natAbs
    have run := taken n.natAbs
    rw [digits, List.cons_append] at run ⊢
    rw [numeralRun_of_ne unsigned, run]

theorem numeralRun_written (n : Int) {c : CodePoint} (other : isNumeralBody c = false) (more : Text) :
    numeralRun (written base n h.1 ++ c :: more) = written base n h.1 :=
  numeralRun_written_append h n fun _ mem => Option.some.inj mem ▸ other

end Literal

end DeskCalculator
