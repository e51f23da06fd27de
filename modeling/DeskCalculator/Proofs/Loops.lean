import DeskCalculator.Proofs.Numeral
import DeskCalculator.Value.Basic

/-!
The loops that take a number apart. One counts its digits, the other one collects them, the last
digit first. Both divide until little enough is left, so they end in every base above one.
-/

namespace DeskCalculator

/-- A loop that executes `body` as long as `test` holds has come from one state to another and has
ended there, after so many passes. -/
inductive Loop {σ : Type} (test : σ → Prop) (body : σ → σ) : σ → Nat → σ → Prop where
  | ends {s : σ} (done : ¬ test s) : Loop test body s 0 s
  | pass {s t : σ} {passes : Nat} (goes : test s) (rest : Loop test body (body s) passes t) :
      Loop test body s (passes + 1) t

namespace Numeral

/-- The loop that counts digits. Its state is what is left of the number, and the count. -/
def Counting (base : Int) : Int × Nat → Nat → Int × Nat → Prop :=
  Loop (fun s => base ≤ s.1) fun s => (s.1.fdiv base, s.2 + 1)

/-- Takes the last digit from a number. -/
def takeDigit (base : Int) (s : Int × List Int) : Int × List Int :=
  (s.1.fdiv base, s.2 ++ [s.1.fmod base])

/-- The loop that collects digits, which tests only after each pass. Its state is what is left of the
number, and the digits. -/
def Collecting (base : Int) (s : Int × List Int) : Nat → Int × List Int → Prop :=
  Loop (fun s => s.1 ≠ 0) (takeDigit base) (takeDigit base s)

section loops
variable {base : Nat} (h : 2 ≤ base)
include h

theorem countFrom_succ (n count : Nat) :
    countFrom base h n (count + 1) = countFrom base h n count + 1 := by
  fun_induction countFrom base h n count with
  | case1 n count large ih => rw [countFrom, if_pos large, ih]
  | case2 n count small => rw [countFrom, if_neg small]

theorem counting_ends (n count : Nat) :
    ∃ passes left, Counting base (n, count) passes (left, countFrom base h n count) := by
  fun_induction countFrom base h n count with
  | case1 n count large ih =>
    obtain ⟨passes, left, counting⟩ := ih
    refine ⟨passes + 1, left, .pass (Int.ofNat_le.mpr large) ?_⟩
    dsimp only
    rwa [← Int.ofNat_fdiv]
  | case2 n count small => exact ⟨0, n, .ends (by simpa using small)⟩

theorem collecting_ends (n : Nat) (ds : List Int) :
    ∃ passes, Collecting base (n, ds) passes
      (0, ds ++ (digits base n).reverse.map fun d : Nat => (d : Int)) := by
  induction n using Nat.strongRecOn generalizing ds with
  | _ n ih =>
    have taken : takeDigit base (n, ds) =
        (((n / base : Nat) : Int), ds ++ [((n % base : Nat) : Int)]) := by
      rw [takeDigit, Int.ofNat_fdiv, Int.ofNat_fmod]
    rw [Collecting, taken]
    by_cases small : n < base
    · rw [Nat.div_eq_of_lt small, Nat.mod_eq_of_lt small, digits_of_lt h small]
      exact ⟨0, .ends (by simp)⟩
    · have large := Nat.not_lt.mp small
      obtain ⟨passes, collecting⟩ := ih (n / base) (Nat.div_lt_self (by omega) h)
        (ds ++ [((n % base : Nat) : Int)])
      have more : ((n / base : Nat) : Int) ≠ 0 := by
        exact_mod_cast Nat.ne_of_gt (Nat.div_pos large (by omega))
      refine ⟨passes + 1, .pass more ?_⟩
      rw [digits_of_le h large, List.reverse_append, List.map_append, ← List.append_assoc]
      exact collecting

end loops

/-- Both loops end for every integer: one in its length, its sign being counted before, and the other
one in the digits it is printed with. -/
theorem loops_end {base : Int} (h : 2 ≤ base) (n : Int) :
    (∃ passes left, Counting base (n.natAbs, if n < 0 then 2 else 1) passes
        (left, (Value.int n).length base)) ∧
      ∃ passes, Collecting base (n.natAbs, []) passes
        (0, (digits base.toNat n.natAbs (two_le_toNat h)).reverse.map fun d : Nat => (d : Int)) := by
  obtain ⟨b, rfl⟩ := Int.eq_ofNat_of_zero_le (by omega : 0 ≤ base)
  have two_le : 2 ≤ b := by omega
  simp only [Int.toNat_natCast]
  refine ⟨?_, collecting_ends two_le n.natAbs []⟩
  have length : (Value.int n).length b h = countFrom b two_le n.natAbs (if n < 0 then 2 else 1) := by
    simp only [Value.length, count, Int.toNat_natCast]
    split
    · exact (countFrom_succ two_le n.natAbs 1).symm
    · rfl
  rw [length]
  exact counting_ends two_le n.natAbs _

end Numeral

end DeskCalculator
