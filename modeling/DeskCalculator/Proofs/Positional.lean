import DeskCalculator.Numeral.Rendering
import DeskCalculator.Proofs.Numeral
import Mathlib.Data.List.Forall2
import Mathlib.Data.List.Induction
import Mathlib.Data.Nat.Digits.Lemmas

/-!
What an integer is printed with. It is its digits in the base, the greatest first, behind a minus
sign if it is below zero: up to base 36 each digit is one character, in a larger base each is a
group of its own, and all the groups are of one width. So no two integers are printed alike. Only
the base decides whether there is anything to print: the digits of a base beyond `decimalLimit`
cannot be written.
-/

namespace DeskCalculator

namespace Numeral

/-- The characters of the digits below 36, in ascending order. -/
def alphabet : Text := Text.ofString "0123456789ABCDEFGHIJKLMNOPQRSTUVWXYZ"

/-- The sum of digits, each times the power of the base for its place. The last digit has the place
zero. -/
def placed (base : Nat) (ds : List Nat) : Nat := (ds.reverse.mapIdx fun i d => d * base ^ i).sum

/-- Digits of a base that stand for a number. -/
structure Stands (base : Nat) (ds : List Nat) (n : Nat) : Prop where
  small : ∀ d ∈ ds, d < base
  sum : placed base ds = n

/-- Digits and their characters. -/
def Spelled (ds : List Nat) (t : Text) : Prop :=
  List.Forall₂ (fun d c => alphabet[d]? = some c) ds t

/-- What a digit is printed with: its character, or in a base above 36 a group. A group is a space
and the digit in decimal, with as many decimal digits as the largest digit of the base needs. -/
inductive Cell (base d : Nat) : Text → Prop where
  | character {c : CodePoint} (small : base ≤ 36) (spelled : alphabet[d]? = some c) :
      Cell base d [c]
  | group {ds : List Nat} {t : Text} (large : 36 < base)
      (width : t.length = (Nat.digits 10 (base - 1)).length) (decimal : Stands 10 ds d)
      (spelled : Spelled ds t) : Cell base d (.scalar ' ' :: t)

/-- The sign of an integer as it is printed. -/
def sign (n : Int) : Text := if n < 0 then [.scalar '-'] else []

/-- The text `t` shows the integer `n` with the digits `ds`, the greatest first. None of them is a
leading zero, but zero itself has a digit too. -/
structure Positional (base : Nat) (n : Int) (ds : List Nat) (t : Text) : Prop where
  stands : Stands base ds n.natAbs
  nonempty : ds ≠ []
  leads : ds.head? = some 0 → n = 0 ∧ ds = [0]
  written : ∃ cells, List.Forall₂ (Cell base) ds cells ∧ t = sign n ++ cells.flatten

/-! ## Digits and their sum -/

theorem placed_eq (base : Nat) (ds : List Nat) : placed base ds = Nat.ofDigits base ds.reverse :=
  (Nat.ofDigits_eq_sum_mapIdx base ds.reverse).symm

theorem placed_append (base : Nat) (ds : List Nat) (d : Nat) :
    placed base (ds ++ [d]) = placed base ds * base + d := by
  rw [placed_eq, placed_eq, List.reverse_append, List.reverse_singleton, List.singleton_append,
    Nat.ofDigits_cons, Nat.add_comm, Nat.mul_comm]

/-- Reading digits from the left comes to their sum. -/
theorem value_eq_placed (base : Nat) (ds : List Nat) : value base ds = placed base ds := by
  induction ds using List.reverseRecOn with
  | nil => rfl
  | append_singleton ds d ih =>
    rw [value_append, ih, placed_append]
    push_cast
    rfl

/-- Zeros in front of digits add nothing. -/
theorem placed_zeros (base k : Nat) (ds : List Nat) :
    placed base (List.replicate k 0 ++ ds) = placed base ds := by
  rw [placed_eq, placed_eq, List.reverse_append, List.reverse_replicate,
    Nat.ofDigits_append_replicate_zero]

variable {base : Nat}

theorem stands_digits (h : 2 ≤ base) (n : Nat) : Stands base (digits base n) n where
  small := digits_lt h n
  sum := by exact_mod_cast (value_eq_placed base _).symm.trans (value_digits h n)

/-- The digits of a number other than zero, beside those that the library lists from the last. -/
theorem digits_eq_reverse (h : 2 ≤ base) {n : Nat} (positive : n ≠ 0) :
    digits base n = (Nat.digits base n).reverse := by
  -- Zero is left out, since the library gives it no digit.
  induction n using Nat.strongRecOn with
  | _ n ih =>
    by_cases small : n < base
    · rw [digits_of_lt h small, Nat.digits_of_lt base n positive small]
      rfl
    · have large := Nat.not_lt.mp small
      have more : n / base ≠ 0 := Nat.ne_of_gt (Nat.div_pos large (by omega))
      rw [digits_of_le h large, ih (n / base) (Nat.div_lt_self (by omega) h) more,
        Nat.digits_def' h (Nat.pos_of_ne_zero positive), List.reverse_cons]

theorem leads_digits (h : 2 ≤ base) {n : Nat} (zero : (digits base n).head? = some 0) :
    n = 0 ∧ digits base n = [0] := by
  by_cases positive : n = 0
  · subst positive
    exact ⟨rfl, digits_of_lt h (by omega)⟩
  · rw [digits_eq_reverse h positive, List.head?_reverse] at zero
    have last := List.getLast_eq_iff_getLast?_eq_some
      (Nat.digits_ne_nil_iff_ne_zero.mpr positive) |>.mpr zero
    exact absurd last (Nat.getLast_digit_ne_zero base positive)

/-- A number has no more digits than a greater one. -/
theorem length_digits_le (h : 2 ≤ base) {m n : Nat} (le : m ≤ n) (positive : n ≠ 0) :
    (digits base m).length ≤ (Nat.digits base n).length := by
  by_cases zero : m = 0
  · subst zero
    rw [digits_of_lt h (by omega)]
    exact List.length_pos_of_ne_nil (Nat.digits_ne_nil_iff_ne_zero.mpr positive)
  · rw [digits_eq_reverse h zero, List.length_reverse]
    exact Nat.le_length_digits_le base m n le

/-! ## Cells -/

theorem alphabet_symbol : ∀ d < 36, alphabet[d]? = some (symbol d) := by
  decide

theorem alphabet_nodup : alphabet.Nodup := by
  decide

theorem spelled_symbols {ds : List Nat} (small : ∀ d ∈ ds, d < 36) :
    Spelled ds (ds.map symbol) := by
  rw [Spelled, List.forall₂_map_right_iff, List.forall₂_same]
  exact fun d mem => alphabet_symbol d (small d mem)

/-- A digit has one character, and a character is that of one digit. -/
theorem eq_of_alphabet {d e : Nat} {c : CodePoint} (first : alphabet[d]? = some c)
    (second : alphabet[e]? = some c) : d = e :=
  (List.getElem?_inj (List.getElem?_eq_some_iff.mp first).1 alphabet_nodup).mp
    (first.trans second.symm)

theorem eq_of_spelled {ds es : List Nat} {t : Text} (first : Spelled ds t) (second : Spelled es t) :
    ds = es := by
  have unique : Relator.LeftUnique fun (d : Nat) (c : CodePoint) => alphabet[d]? = some c :=
    fun _ _ _ => eq_of_alphabet
  exact List.left_unique_forall₂' unique first second

/-- What a digit is printed with. -/
def cell (base d : Nat) : Text :=
  if base ≤ 36 then [symbol d] else group (decimal (base - 1)).length d

/-- A number that is filled up with zeros has the digits that it had, behind zeros. -/
theorem padded_decimal (width d : Nat) : Text.padded width (.scalar '0') (decimal d) =
    (List.replicate (width - (digits 10 d).length) 0 ++ digits 10 d).map symbol := by
  rw [Text.padded, decimal, List.map_append, List.map_replicate, List.length_map]
  rfl

theorem cell_cell (h : 2 ≤ base) {d : Nat} (small : d < base) : Cell base d (cell base d) := by
  unfold cell
  split
  · rename_i few
    exact .character few (alphabet_symbol d (by omega))
  · rename_i many
    have widest : (decimal (base - 1)).length = (Nat.digits 10 (base - 1)).length := by
      rw [decimal, List.length_map, digits_eq_reverse (by omega) (by omega), List.length_reverse]
    have fits : (digits 10 d).length ≤ (Nat.digits 10 (base - 1)).length :=
      length_digits_le (by omega) (by omega) (by omega)
    have stands : Stands 10 (digits 10 d) d := stands_digits (by omega) d
    have filled : ∀ e ∈ List.replicate ((Nat.digits 10 (base - 1)).length - (digits 10 d).length) 0
        ++ digits 10 d, e < 10 := by
      intro e mem
      obtain zero | digit := List.mem_append.mp mem
      · rw [List.eq_of_mem_replicate zero]
        omega
      · exact stands.small e digit
    rw [group, widest, padded_decimal]
    refine .group (by omega) ?_ ⟨filled, ?_⟩ (spelled_symbols fun e mem => ?_)
    · rw [List.length_map, List.length_append, List.length_replicate, Nat.sub_add_cancel fits]
    · rw [placed_zeros, stands.sum]
    · exact Nat.lt_trans (filled e mem) (by omega)

/-- How many characters a digit takes. -/
def cellLength (base : Nat) : Nat :=
  if base ≤ 36 then 1 else (Nat.digits 10 (base - 1)).length + 1

theorem Cell.length {d : Nat} {t : Text} (h : Cell base d t) : t.length = cellLength base := by
  cases h with
  | character few => rw [cellLength, if_pos few, List.length_singleton]
  | group many width =>
    rw [cellLength, if_neg (Nat.not_le.mpr many), List.length_cons, width]

theorem cellLength_eq_one_iff : cellLength base = 1 ↔ base ≤ 36 := by
  unfold cellLength
  split
  · rename_i few
    exact iff_of_true rfl few
  · rename_i many
    have some := List.length_pos_of_ne_nil
      (Nat.digits_ne_nil_iff_ne_zero (b := 10).mpr (by omega : base - 1 ≠ 0))
    exact iff_of_false (by omega) many

theorem length_flatten_cells {ds : List Nat} {cells : List Text}
    (h : List.Forall₂ (Cell base) ds cells) :
    cells.flatten.length = ds.length * cellLength base := by
  induction h with
  | nil => rw [List.flatten_nil, List.length_nil, List.length_nil, Nat.zero_mul]
  | cons first _ ih =>
    rw [List.flatten_cons, List.length_append, first.length, ih, List.length_cons, Nat.succ_mul,
      Nat.add_comm]

theorem eq_of_cell {d e : Nat} {t : Text} (first : Cell base d t) (second : Cell base e t) :
    d = e := by
  cases first with
  | character few spelled =>
    cases second with
    | character _ spelled' => exact eq_of_alphabet spelled spelled'
    | group many => exact absurd few (Nat.not_le.mpr many)
  | group many _ decimal spelled =>
    cases second with
    | character few => exact absurd few (Nat.not_le.mpr many)
    | group _ _ decimal' spelled' =>
      obtain rfl := eq_of_spelled spelled spelled'
      exact decimal.sum.symm.trans decimal'.sum

/-- Digits are told from what they are printed with, since all of them are printed equally long. -/
theorem eq_of_flatten_cells {ds es : List Nat} {xs ys : List Text}
    (first : List.Forall₂ (Cell base) ds xs) (second : List.Forall₂ (Cell base) es ys)
    (same : xs.flatten = ys.flatten) : ds = es := by
  -- Equal texts may be cut differently, so the cuts are compared first.
  have lengths : xs.map List.length = ys.map List.length := by
    have counts : ds.length * cellLength base = es.length * cellLength base := by
      rw [← length_flatten_cells first, ← length_flatten_cells second, same]
    have positive : 0 < cellLength base := by
      unfold cellLength
      split <;> omega
    have many := Nat.eq_of_mul_eq_mul_right positive counts
    have all {ds : List Nat} {cells : List Text} (h : List.Forall₂ (Cell base) ds cells) :
        cells.map List.length = List.replicate ds.length (cellLength base) := by
      induction h with
      | nil => rfl
      | cons head _ ih => rw [List.map_cons, head.length, ih, List.length_cons, List.replicate_succ]
    rw [all first, all second, many]
  obtain rfl := List.eq_iff_flatten_eq.mpr ⟨same, lengths⟩
  have unique : Relator.LeftUnique (Cell base) := fun _ _ _ => eq_of_cell
  exact List.left_unique_forall₂' unique first second

/-- No digit is printed with a minus sign first. -/
theorem Cell.head {d : Nat} {t : Text} (h : Cell base d t) : t.head? ≠ some (.scalar '-') := by
  cases h with
  | character _ spelled =>
    rintro minus
    obtain rfl := Option.some.inj minus
    have mem : CodePoint.scalar '-' ∈ alphabet := List.mem_of_getElem? spelled
    revert mem
    decide
  | group => simp

/-! ## Integers -/

namespace Positional

variable {m n : Int} {ds es : List Nat} {t : Text}

theorem length (h : Positional base n ds t) :
    t.length = (sign n).length + ds.length * cellLength base := by
  obtain ⟨cells, each, rfl⟩ := h.written
  rw [List.length_append, length_flatten_cells each]

/-- An integer that is below zero is told from its sign. -/
theorem negative_iff (h : Positional base n ds t) : n < 0 ↔ t.head? = some (.scalar '-') := by
  obtain ⟨cells, each, rfl⟩ := h.written
  unfold sign
  split
  · rename_i negative
    exact iff_of_true negative rfl
  · rename_i whole
    refine iff_of_false whole ?_
    -- A number that is not below zero starts with its first digit, which is no minus sign.
    cases each with
    | nil => exact absurd rfl h.nonempty
    | @cons d c ds cells first _ =>
      have long : c ≠ [] := by
        cases first <;> exact List.cons_ne_nil _ _
      rw [List.nil_append, List.flatten_cons, List.head?_append_of_ne_nil _ long]
      exact first.head

theorem eq_of_same_text (h : Positional base m ds t) (h' : Positional base n es t) : m = n := by
  have signs : m < 0 ↔ n < 0 := h.negative_iff.trans h'.negative_iff.symm
  obtain ⟨xs, first, shown⟩ := h.written
  obtain ⟨ys, second, shown'⟩ := h'.written
  have sign : sign m = sign n := by simp only [sign, signs]
  have same := List.append_cancel_left (shown.symm.trans (sign ▸ shown'))
  obtain rfl := eq_of_flatten_cells first second same
  have size : m.natAbs = n.natAbs := h.stands.sum.symm.trans h'.stands.sum
  omega

end Positional

theorem renderMagnitude_eq_flatMap (h : 2 ≤ base) (writable : base ≤ decimalLimit) (n : Nat) :
    renderMagnitude base n = .ok ((digits base n).flatMap (cell base)) := by
  rw [renderMagnitude_natCast h]
  split
  · rename_i few
    have alone : cell base = fun d => [symbol d] :=
      funext fun d => if_pos few
    rw [alone, List.map_eq_flatMap]
  · rename_i many
    have grouped : cell base = group (decimal (base - 1)).length :=
      funext fun d => if_neg many
    rw [if_neg (by omega), grouped]

theorem renderMagnitude_of_lt {base : Int} (lt : decimalLimit < base) (n : Nat) :
    renderMagnitude base n = .error .numeralTooLong := by
  have small : 36 ≤ decimalLimit := by decide +kernel
  obtain ⟨b, rfl⟩ := Int.eq_ofNat_of_zero_le (by omega : 0 ≤ base)
  rw [renderMagnitude_natCast (by omega), if_neg (by omega), if_pos (by omega)]

/-- Whether an integer can be written depends on the base alone. -/
theorem render_of_lt {base : Int} (lt : decimalLimit < base) (n : Int) :
    render base n = .error .numeralTooLong := by
  unfold render
  rw [renderMagnitude_of_lt lt]
  split <;> rfl

/-- An integer is printed with its digits. -/
theorem exists_render (h : 2 ≤ base) (writable : base ≤ decimalLimit) (n : Int) :
    ∃ t, render base n = .ok t ∧ Positional base n (digits base n.natAbs) t := by
  refine ⟨sign n ++ (digits base n.natAbs).flatMap (cell base), ?_, ?_⟩
  · unfold render sign
    rw [renderMagnitude_eq_flatMap h writable]
    split <;> rfl
  · refine ⟨stands_digits h _, digits_ne_nil h _, fun zero => ?_, _, ?_, rfl⟩
    · obtain ⟨none, alone⟩ := leads_digits h zero
      exact ⟨Int.natAbs_eq_zero.mp none, alone⟩
    · rw [List.forall₂_map_right_iff, List.forall₂_same]
      exact fun d mem => cell_cell h (digits_lt h _ d mem)

theorem render_of_le {base : Int} (h : 2 ≤ base) (le : base ≤ decimalLimit) (n : Int) :
    ∃ t, render base n = .ok t := by
  obtain ⟨b, rfl⟩ := Int.eq_ofNat_of_zero_le (by omega : 0 ≤ base)
  obtain ⟨t, rendered, -⟩ := exists_render (by omega) (Int.ofNat_le.mp le) n
  exact ⟨t, rendered⟩

/-- Whether an integer can be printed depends on the base alone: its digits must not be too long to
be written. If it can, it is printed in positional form, and no other integer is printed as it is.
-/
theorem rendering_positional (h : 2 ≤ base) :
    (decimalLimit < base → ∀ n : Int, render base n = .error .numeralTooLong) ∧
      (base ≤ decimalLimit →
        (∀ n : Int, ∃ ds t, render base n = .ok t ∧ Positional base n ds t) ∧
          ∀ m n : Int, render base m = render base n → m = n) := by
  refine ⟨fun long => render_of_lt (Int.ofNat_lt.mpr long), fun writable =>
    ⟨fun n => ?_, fun m n same => ?_⟩⟩
  · obtain ⟨t, rendered, positional⟩ := exists_render h writable n
    exact ⟨_, t, rendered, positional⟩
  · obtain ⟨t, rendered, positional⟩ := exists_render h writable m
    obtain ⟨t', rendered', positional'⟩ := exists_render h writable n
    obtain rfl : t = t' := Except.ok.inj (rendered.symm.trans (same.trans rendered'))
    exact positional.eq_of_same_text positional'

/-- In base 1001 the largest digit has four decimal digits, and one beyond `decimalLimit` is too
long. -/
theorem rendering_positional_groups :
    (∃ ds, Positional 1001 (-5008) ds (Text.ofString "- 0005 0003")) ∧
      render ((decimalLimit + 1 : Nat) : Int) 0 = .error .numeralTooLong := by
  obtain ⟨-, writes⟩ := rendering_positional (by decide : 2 ≤ 1001)
  obtain ⟨shows, -⟩ := writes (by decide +kernel)
  obtain ⟨ds, t, rendered, positional⟩ := shows (-5008)
  have text : render 1001 (-5008) = .ok (Text.ofString "- 0005 0003") := by decide +kernel
  obtain rfl := Except.ok.inj (rendered.symm.trans text)
  have large : 2 ≤ decimalLimit + 1 := by decide +kernel
  exact ⟨⟨ds, positional⟩, (rendering_positional large).1 (Nat.lt_add_one decimalLimit) 0⟩

end Numeral

end DeskCalculator
