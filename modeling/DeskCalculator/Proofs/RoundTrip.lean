import DeskCalculator.Cursor
import DeskCalculator.Numeral.Rendering
import DeskCalculator.Proofs.Numeral
import Mathlib.Data.List.Induction

/-!
Reading undoes printing. An integer that is printed in one of the bases programs may be written in
comes back when it is read in that base, from any text that goes on with something else; and digits
that are read are printed as they were.
-/

namespace DeskCalculator

namespace Numeral

/-- A number as programs write it, from the way it is printed: the minus sign becomes `_`. -/
def literal : Text → Text
  | .scalar '-' :: t => .scalar '_' :: t
  | t => t

theorem literal_of_ne {c : CodePoint} (unsigned : c ≠ .scalar '-') (t : Text) :
    literal (c :: t) = c :: t := by
  unfold literal
  split
  · rename_i signed
    exact absurd (List.cons.inj signed).1 unsigned
  · rfl

/-- No digit is written with a minus sign. -/
theorem symbol_ne_minus : ∀ d < 16, symbol d ≠ .scalar '-' := by
  decide

/-- A digit that is read is written as it was. -/
theorem symbol_of_digit? {c : CodePoint} {d : Nat} (found : digit? c = some d) : symbol d = c := by
  cases c with
  | surrogate => cases found
  | scalar c =>
    simp only [digit?, Char.le_def, UInt32.le_iff_toNat_le] at found
    split at found
    · rename_i decimal
      have place : 0x30 ≤ c.toNat ∧ c.toNat ≤ 0x39 := decimal
      obtain rfl := Option.some.inj found
      rw [symbol, if_pos (by omega), Nat.add_sub_cancel' place.1, Char.ofNat_toNat]
    · split at found
      · rename_i letter
        have place : 0x41 ≤ c.toNat ∧ c.toNat ≤ 0x46 := letter
        obtain rfl := Option.some.inj found
        rw [symbol, if_neg (by omega), Nat.add_sub_cancel' (by omega), Char.ofNat_toNat]
      · cases found

theorem exists_digit?_of_fits {base : Nat} {c : CodePoint} (fitting : fits base c) :
    ∃ d < base, digit? c = some d := by
  unfold fits at fitting
  cases found : digit? c with
  | none => simp [found] at fitting
  | some d => exact ⟨d, by simpa [found] using fitting, rfl⟩

/-- A text of digits that fit the base is written with some. -/
theorem exists_map_symbol_of_fits {base : Nat} {w : Text} (fitting : ∀ c ∈ w, fits base c) :
    ∃ ds : List Nat, ds.map symbol = w ∧ ∀ d ∈ ds, d < base := by
  induction w with
  | nil => exact ⟨[], rfl, List.forall_mem_nil _⟩
  | cons c w ih =>
    obtain ⟨first, others⟩ := List.forall_mem_cons.mp fitting
    obtain ⟨d, lt, found⟩ := exists_digit?_of_fits first
    obtain ⟨ds, rfl, small⟩ := ih others
    refine ⟨d :: ds, ?_, List.forall_mem_cons.mpr ⟨lt, small⟩⟩
    rw [List.map_cons, symbol_of_digit? found]

/-- Digits without a leading zero are the digits of the number they stand for. -/
theorem exists_digits_eq {base : Nat} (h : 2 ≤ base) {ds : List Nat} (written : ds ≠ [])
    (small : ∀ d ∈ ds, d < base) (leads : ds.head? = some 0 → ds = [0]) :
    ∃ n : Nat, value base ds = n ∧ digits base n = ds := by
  -- The number grows by one digit on the right for each digit that is read.
  induction ds using List.reverseRecOn with
  | nil => exact absurd rfl written
  | append_singleton init d ih =>
    have last : d < base := small d (by simp)
    cases init with
    | nil => exact ⟨d, by simp [value], digits_of_lt h last⟩
    | cons first init =>
      have nonzero : first ≠ 0 := by
        rintro rfl
        simpa using leads rfl
      obtain ⟨n, stands, made⟩ := ih (List.cons_ne_nil _ _)
        (fun d mem => small d (List.mem_append_left _ mem))
        (fun zero => absurd (Option.some.inj zero) nonzero)
      have positive : n ≠ 0 := by
        rintro rfl
        rw [digits_of_lt h (by omega)] at made
        exact nonzero (List.cons.inj made).1.symm
      have large : base ≤ n * base + d :=
        Nat.le_trans (Nat.le_mul_of_pos_left base (Nat.pos_of_ne_zero positive))
          (Nat.le_add_right _ _)
      refine ⟨n * base + d, by rw [value_append, stands]; push_cast; rfl, ?_⟩
      have quotient : (n * base + d) / base = n := by
        rw [Nat.mul_comm, Nat.mul_add_div (by omega), Nat.div_eq_of_lt last, Nat.add_zero]
      have remainder : (n * base + d) % base = d := by
        rw [Nat.mul_comm, Nat.mul_add_mod, Nat.mod_eq_of_lt last]
      rw [digits_of_le h large, quotient, remainder, made]

section bases
variable {base : Nat} (h : 2 ≤ base ∧ base ≤ 16)
include h

theorem renderMagnitude_eq (n : Nat) : renderMagnitude base n = .ok (magnitude base n h.1) := by
  rw [renderMagnitude_natCast h.1, if_pos (by omega), magnitude]

theorem literal_magnitude (n : Nat) : literal (magnitude base n h.1) = magnitude base n h.1 := by
  obtain ⟨d, ds, made⟩ := List.exists_cons_of_ne_nil (digits_ne_nil h.1 n)
  have small : d < base := digits_lt h.1 n d (made ▸ List.mem_cons_self)
  rw [magnitude, made, List.map_cons, literal_of_ne (symbol_ne_minus d (by omega))]

/-- What is printed for an integer is what programs write it with, but for the sign. -/
theorem render_literal (n : Int) :
    ∃ shown, render base n = .ok shown ∧ literal shown = written base n h.1 := by
  unfold render written
  split
  · rw [renderMagnitude_eq h]
    exact ⟨_, rfl, rfl⟩
  · rw [renderMagnitude_eq h]
    exact ⟨_, rfl, literal_magnitude h _⟩

/-- Digits that fit the base and have no leading zero are read, and the number is printed with them. -/
theorem render_read {w : Text} (written : w ≠ []) (fitting : ∀ c ∈ w, fits base c)
    (leads : w.head? = some (.scalar '0') → w = [.scalar '0']) :
    ∃ v, read base w = .ok v ∧ render base v = .ok w := by
  obtain ⟨ds, rfl, small⟩ := exists_map_symbol_of_fits fitting
  have below : ∀ d ∈ ds, d < 16 := fun d mem => Nat.lt_of_lt_of_le (small d mem) h.2
  obtain ⟨n, stands, made⟩ := exists_digits_eq h.1 (by simpa using written) small (by
    intro zero
    cases ds with
    | nil => cases zero
    | cons d ds =>
      obtain rfl := Option.some.inj zero
      have alone := (List.cons.inj (leads rfl)).2
      rw [List.map_eq_nil_iff.mp alone])
  have read : read base (ds.map symbol) = .ok n := by
    rw [read, List.dropWhile_eq_nil_iff.mpr fitting, leading,
      List.takeWhile_eq_self_iff.mpr fitting, filterMap_symbol below, stands]
  refine ⟨n, read, ?_⟩
  rw [render, if_neg (by omega), Int.natAbs_natCast, renderMagnitude_eq h, magnitude, made]

/-- An integer that was printed is read back where its text is followed by nothing or by something
else than a digit or a point. -/
theorem numeral_render (n : Int) {t : Text} (other : ∀ c ∈ t.head?, Literal.isNumeralBody c = false) :
    ∃ shown, render base n = .ok shown ∧
      Cursor.numeral base ⟨literal shown ++ t, 0⟩ =
        (.int n, ⟨literal shown ++ t, (literal shown).length⟩) := by
  obtain ⟨shown, rendered, literally⟩ := render_literal h n
  refine ⟨shown, rendered, ?_⟩
  have run : Literal.numeralRun (written base n h.1 ++ t) = written base n h.1 :=
    Literal.numeralRun_written_append h n other
  simp only [literally, Cursor.numeral, Cursor.rest, List.drop_zero, run,
    Literal.number_written h, Nat.zero_min, Nat.zero_add]

end bases

/-- Reading undoes printing, in every base from two to sixteen. The text that an integer is printed
with, `_` being put for its sign, is read as the integer and to its end, whatever else follows; and
digits without a leading zero are read as a number that is printed with them. -/
theorem reading_undoes_printing {base : Int} (bounds : 2 ≤ base ∧ base ≤ 16) :
    (∀ (n : Int) (t : Text), (∀ c ∈ t.head?, Literal.isNumeralBody c = false) →
      ∃ shown, render base n = .ok shown ∧
        Cursor.numeral base ⟨literal shown ++ t, 0⟩ =
          (.int n, ⟨literal shown ++ t, (literal shown).length⟩)) ∧
      ∀ w : Text, w ≠ [] → (∀ c ∈ w, fits base c) →
        (w.head? = some (.scalar '0') → w = [.scalar '0']) →
        ∃ v, read base w = .ok v ∧ render base v = .ok w := by
  obtain ⟨b, rfl⟩ := Int.eq_ofNat_of_zero_le (by omega : 0 ≤ base)
  have h : 2 ≤ b ∧ b ≤ 16 := by omega
  exact ⟨fun n t other => numeral_render h n other,
    fun w written fitting leads => render_read h written fitting leads⟩

/-- `-BEEF` in base sixteen, with a space after it, and the digits `1A`. -/
theorem reading_undoes_printing_sixteen :
    (∃ shown, render 16 (-0xBEEF) = .ok shown ∧
      Cursor.numeral 16 ⟨literal shown ++ Text.ofString " p", 0⟩ =
        (.int (-0xBEEF), ⟨literal shown ++ Text.ofString " p", (literal shown).length⟩)) ∧
      ∃ v, read 16 (Text.ofString "1A") = .ok v ∧ render 16 v = .ok (Text.ofString "1A") := by
  obtain ⟨printed, digits⟩ := reading_undoes_printing (by decide : (2 : Int) ≤ 16 ∧ (16 : Int) ≤ 16)
  exact ⟨printed (-0xBEEF) (Text.ofString " p") (by decide),
    digits (Text.ofString "1A") (by decide) (by decide) (by decide)⟩

end Numeral

end DeskCalculator
