import DeskCalculator.Proofs.Loops
import DeskCalculator.Proofs.Positional
import DeskCalculator.Proofs.Validity
import Mathlib.Data.Nat.Log

/-!
The length of an integer, as it is counted and as it is printed. The instruction that takes the
length counts digits and a sign, and there are as many digits as the powers of the base tell. An
integer is printed with a character for each digit in bases up to 36 and with a group for each digit
beyond. So the length is that of the print up to base 36, and in no larger base.
-/

namespace DeskCalculator

namespace Numeral

variable {base : Nat} (h : 2 ≤ base)

theorem length_digitsOnto (n : Nat) (tail : List Nat) :
    (digitsOnto base h n tail).length = countFrom base h n (tail.length + 1) := by
  fun_induction digitsOnto base h n tail with
  | case1 n tail large ih =>
    rw [countFrom, if_pos large]
    exact ih
  | case2 n tail small => rw [countFrom, if_neg small, List.length_cons]

/-- Counting comes to as many digits as there are. -/
theorem count_eq_length (n : Nat) : count base n = (digits base n).length :=
  (length_digitsOnto h n []).symm

/-- A number has one digit more than its logarithm says. -/
theorem length_digits (n : Nat) :
    (digits base n).length = Nat.log base n + 1 := by
  by_cases zero : n = 0
  · rw [zero, digits_of_lt h (by omega), Nat.log_zero_right]
    rfl
  · rw [digits_eq_reverse h zero, List.length_reverse, Nat.length_digits base n h zero]

/-- A number is below the power of the base for its digits, and not below the one before, unless it
has but one digit. -/
theorem length_digits_bounds (n : Nat) :
    n < base ^ (digits base n).length ∧
      (base ^ ((digits base n).length - 1) ≤ n ∨ (digits base n).length = 1) := by
  rw [length_digits h, Nat.add_sub_cancel]
  refine ⟨Nat.lt_pow_succ_log_self h n, ?_⟩
  by_cases zero : n = 0
  · exact .inr (by rw [zero, Nat.log_zero_right])
  · exact .inl (Nat.pow_log_le_self base zero)

end Numeral

theorem Value.length_int {base : Int} (h : 2 ≤ base) (n : Int) : (int n).length base =
    (Numeral.digits base.toNat n.natAbs (Numeral.two_le_toNat h)).length +
      (Numeral.sign n).length := by
  rw [length, Numeral.count_eq_length, Numeral.sign]
  split <;> rfl

namespace Numeral.Positional

variable {base : Nat} {n : Int} {ds : List Nat} {t : Text}

/-- The digits and the sign are as many as the characters if each digit has one, and fewer if not.
-/
theorem count_eq_length_iff (h : Positional base n ds t) :
    ds.length + (sign n).length = t.length ↔ base ≤ 36 := by
  have some := List.length_pos_of_ne_nil h.nonempty
  rw [h.length, Nat.add_comm, Nat.add_left_cancel_iff, ← cellLength_eq_one_iff]
  constructor
  · intro same
    exact Nat.eq_of_mul_eq_mul_left some (same.symm.trans (Nat.mul_one _).symm)
  · intro one
    rw [one, Nat.mul_one]

end Numeral.Positional

namespace Machine

variable {host : Host} {m : Machine} {n : Int} {rest : List Value} {t : Text}

theorem perform_length (builtIn : m.overrides = {}) (stack : m.store.stack = .int n :: rest)
    (next : Option Text) (turned : Bool) :
    let length := (Value.int n).length m.store.outputBase m.store.two_le_outputBase
    perform host [.scalar 'Z'] next turned m =
      .ok .proceed { m with store := { m.store with stack := .int length :: rest } } := by
  intro length
  have answers : (Instruction.ofName [.scalar 'Z']).perform next turned m.store =
      .ok {} { m.store with stack := .int length :: rest } := by
    change Instruction.length.perform next turned m.store = _
    have popped : Store.pop m.store = .ok (.int n) { m.store with stack := rest } := by
      simp only [Store.pop, stack]
    rw [Instruction.perform, bind_ok popped]
    rfl
  rw [perform_builtIn builtIn rfl answers]
  rfl

theorem perform_printTop (builtIn : m.overrides = {}) (stack : m.store.stack = .int n :: rest)
    (shown : Numeral.render m.store.outputBase n = .ok t)
    (taken : host.write m.history (t ++ [.scalar '\n']) = none) (next : Option Text)
    (turned : Bool) :
    perform host [.scalar 'p'] next turned m =
      .ok .proceed { m with history := .wrote (t ++ [.scalar '\n']) :: m.history } := by
  have answers : (Instruction.ofName [.scalar 'p']).perform next turned m.store =
      .ok { prints := [⟨.int n, true⟩] } m.store := by
    change Instruction.printTop.perform next turned m.store = _
    have seen : Store.top m.store = .ok (.int n) m.store := by
      simp only [Store.top, stack]
    rw [Instruction.perform, bind_ok seen]
    rfl
  have text : printed m.store.outputBase ⟨.int n, true⟩ = .ok (t ++ [.scalar '\n']) := by
    simp only [printed, Value.shown, shown]
    rfl
  rw [perform_builtIn builtIn rfl answers]
  simp only [printAll, print, text, ask, taken, note, update, ascribing, bind_apply]
  rfl

/-- An integer that can be printed is printed in positional form. The instruction that takes its
length leaves the number of its digits and its sign, and that is the number of characters printed if
and only if the output base is at most 36. -/
theorem length_printed_iff (builtIn : m.overrides = {})
    (stack : m.store.stack = .int n :: rest)
    (shown : Numeral.render m.store.outputBase n = .ok t)
    (taken : host.write m.history (t ++ [.scalar '\n']) = none) (next : Option Text)
    (turned : Bool) :
    perform host [.scalar 'p'] next turned m =
        .ok .proceed { m with history := .wrote (t ++ [.scalar '\n']) :: m.history } ∧
      ∃ ds, Numeral.Positional m.store.outputBase.toNat n ds t ∧
        let counted := ds.length + (Numeral.sign n).length
        perform host [.scalar 'Z'] next turned m =
            .ok .proceed { m with store := { m.store with stack := .int counted :: rest } } ∧
          (counted = t.length ↔ m.store.outputBase ≤ 36) := by
  refine ⟨perform_printTop builtIn stack shown taken next turned, ?_⟩
  have base := m.store.two_le_outputBase
  obtain ⟨b, same⟩ := Int.eq_ofNat_of_zero_le (by omega : 0 ≤ m.store.outputBase)
  have writable : b ≤ decimalLimit := by
    refine Nat.not_lt.mp fun long => ?_
    cases shown.symm.trans (Numeral.render_of_lt (by omega) n)
  obtain ⟨t', rendered, positional⟩ := Numeral.exists_render (by omega : 2 ≤ b) writable n
  obtain rfl : t = t' := Except.ok.inj (shown.symm.trans (same ▸ rendered))
  refine ⟨_, by rwa [same], ?_, positional.count_eq_length_iff.trans (by omega)⟩
  rw [perform_length builtIn stack, Value.length_int base]
  simp only [same, Int.toNat_natCast]

/-- In base 36 the integer -1295 is printed as `-ZZ`, and its length is three. -/
theorem length_printed_iff_thirty_six :
    let m : Machine := { store := { stack := [.int (-1295)], outputBase := 36 } }
    perform {} [.scalar 'p'] none false m =
        .ok .proceed { m with history := [.wrote (Text.ofString "-ZZ" ++ [.scalar '\n'])] } ∧
      perform {} [.scalar 'Z'] none false m =
        .ok .proceed { m with store := { m.store with stack := [.int 3] } } := by
  intro m
  have shown : Numeral.render 36 (-1295) = .ok (Text.ofString "-ZZ") := by decide +kernel
  obtain ⟨writes, ds, -, counts, agrees⟩ :=
    @length_printed_iff {} m (-1295) [] _ rfl rfl shown rfl none false
  refine ⟨writes, ?_⟩
  rw [counts, agrees.mpr (by decide)]
  rfl

/-- In base 100 the integer 5 is printed as a space and two digits, but its length is one. -/
theorem length_unprinted :
    let m : Machine := { store := { stack := [.int 5], outputBase := 100 } }
    perform {} [.scalar 'p'] none false m =
        .ok .proceed { m with history := [.wrote (Text.ofString " 05" ++ [.scalar '\n'])] } ∧
      perform {} [.scalar 'Z'] none false m =
        .ok .proceed { m with store := { m.store with stack := [.int 1] } } ∧
      (Text.ofString " 05").length = 3 := by
  intro m
  have shown : Numeral.render 100 5 = .ok (Text.ofString " 05") := by decide +kernel
  have one : (Value.int 5).length 100 = 1 := by decide +kernel
  refine ⟨perform_printTop (m := m) rfl rfl shown rfl none false, ?_, rfl⟩
  · rw [perform_length (m := m) rfl rfl]
    simp only [m, one]
    rfl

/-- In every base above one the digits of an integer come to an end, and there are as many as the
powers of the base tell. The instruction that takes the length counts them, one beforehand for the
sign of an integer below zero, and they are the digits that the integer is printed with. -/
theorem digits_counted (builtIn : m.overrides = {})
    (stack : m.store.stack = .int n :: rest) (next : Option Text) (turned : Bool) :
    ∃ (k : Nat) (ds : List Int),
      let b := m.store.outputBase
      let counted := if n < 0 then k + 1 else k
      perform host [.scalar 'Z'] next turned m =
          .ok .proceed { m with store := { m.store with stack := .int counted :: rest } } ∧
        (∃ passes left,
          Numeral.Counting b (n.natAbs, if n < 0 then 2 else 1) passes (left, counted)) ∧
        1 ≤ k ∧ n.natAbs < b ^ k ∧ (b ^ (k - 1) ≤ n.natAbs ∨ k = 1) ∧
        (∃ passes, Numeral.Collecting b (n.natAbs, []) passes (0, ds)) ∧ k = ds.length ∧
        (b ≤ decimalLimit → ∃ digits t, ds.reverse = digits.map Nat.cast ∧
          Numeral.render b n = .ok t ∧ Numeral.Positional b.toNat n digits t) := by
  have base := m.store.two_le_outputBase
  obtain ⟨⟨passes, left, counting⟩, collecting⟩ := Numeral.loops_end base n
  obtain ⟨b, same⟩ := Int.eq_ofNat_of_zero_le (by omega : 0 ≤ m.store.outputBase)
  have large : 2 ≤ b := by omega
  have digits : Numeral.digits m.store.outputBase.toNat n.natAbs (Numeral.two_le_toNat base) =
      Numeral.digits b n.natAbs := by
    simp only [same, Int.toNat_natCast]
  rw [digits] at collecting
  obtain ⟨below, above⟩ := Numeral.length_digits_bounds large n.natAbs
  have length : (Value.int n).length m.store.outputBase base =
      if n < 0 then (Numeral.digits b n.natAbs).length + 1
      else (Numeral.digits b n.natAbs).length := by
    rw [Value.length_int base, digits, Numeral.sign]
    split <;> rfl
  rw [length] at counting
  refine ⟨(Numeral.digits b n.natAbs).length, _, ?_, ⟨passes, left, counting⟩, ?_, ?_, ?_,
    collecting, ?_, fun writable => ?_⟩
  · rw [perform_length builtIn stack, length]
  · exact List.length_pos_of_ne_nil (Numeral.digits_ne_nil large _)
  · rw [same]
    exact_mod_cast below
  · rw [same]
    exact_mod_cast above
  · rw [List.length_map, List.length_reverse]
  · rw [same] at writable
    obtain ⟨t, rendered, positional⟩ := Numeral.exists_render large (Int.ofNat_le.mp writable) n
    refine ⟨_, t, by rw [← List.map_reverse, List.reverse_reverse], ?_⟩
    rw [same]
    exact ⟨rendered, positional⟩

/-- In base ten -1000 has four digits, and with its sign the count comes to five. -/
theorem digits_counted_power :
    let m : Machine := { store := { stack := [.int (-1000)] } }
    perform {} [.scalar 'Z'] none false m =
        .ok .proceed { m with store := { m.store with stack := [.int 5] } } ∧
      (∃ passes left, Numeral.Counting 10 (1000, 2) passes (left, 5)) ∧
      (1000 : Int) < 10 ^ 4 ∧ (10 : Int) ^ 3 ≤ 1000 := by
  intro m
  have five : (Value.int (-1000)).length 10 = 5 := by decide +kernel
  obtain ⟨k, ds, performed, counting, -, below, above, -⟩ :=
    @digits_counted {} m (-1000) [] rfl rfl none false
  have computed := @perform_length {} m (-1000) [] rfl rfl none false
  have alike := congrArg (fun r => (leftState r).store.stack) (performed.symm.trans computed)
  obtain rfl : k = 4 := by
    have counts : ((k + 1 : Nat) : Int) = ((Value.int (-1000)).length 10 : Nat) :=
      Value.int.inj (List.cons.inj alike).1
    rw [five] at counts
    omega
  exact ⟨performed, counting, below, above.resolve_right (by decide)⟩

end Machine

end DeskCalculator
