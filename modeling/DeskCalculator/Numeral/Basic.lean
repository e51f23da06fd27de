import DeskCalculator.Text.Basic

/-!
Positional notation: the digits of a number, the number that digits stand for, and the characters
that digits are written with.
-/

namespace DeskCalculator.Numeral

theorem two_le_toNat {base : Int} (h : 2 ≤ base) : 2 ≤ base.toNat := by omega

/-- The digits of `n` in front of `tail`, most significant first. -/
def digitsOnto (base : Nat) (h : 2 ≤ base) (n : Nat) (tail : List Nat) : List Nat :=
  if base ≤ n then digitsOnto base h (n / base) (n % base :: tail) else n :: tail
termination_by n
decreasing_by exact Nat.div_lt_self (by omega) h

/-- The digits of `n`, most significant first; zero has one. There is no positional notation in a
base below two. -/
def digits (base n : Nat) (h : 2 ≤ base := by first | assumption | decide) : List Nat :=
  digitsOnto base h n []

/-- The number that digits stand for, most significant first. The base may be any integer. -/
def value (base : Int) (ds : List Nat) : Int := ds.foldl (fun n (d : Nat) => n * base + d) 0

/-- The number of digits of `n` on top of `count - 1`, counted without making them. -/
def countFrom (base : Nat) (h : 2 ≤ base) (n count : Nat) : Nat :=
  if base ≤ n then countFrom base h (n / base) (count + 1) else count
termination_by n
decreasing_by exact Nat.div_lt_self (by omega) h

def count (base n : Nat) (h : 2 ≤ base := by first | assumption | decide) : Nat :=
  countFrom base h n 1

section digits
variable {base : Nat} (h : 2 ≤ base)

theorem digitsOnto_append (n : Nat) (tail more : List Nat) :
    digitsOnto base h n (tail ++ more) = digitsOnto base h n tail ++ more := by
  fun_induction digitsOnto base h n tail with
  | case1 n tail large ih => rw [digitsOnto, if_pos large, ← List.cons_append, ih]
  | case2 n tail small => rw [digitsOnto, if_neg small, List.cons_append]

theorem digits_of_lt {n : Nat} (small : n < base) : digits base n = [n] := by
  rw [digits, digitsOnto, if_neg (Nat.not_le.mpr small)]

theorem digits_of_le {n : Nat} (large : base ≤ n) :
    digits base n = digits base (n / base) ++ [n % base] := by
  rw [digits, digitsOnto, if_pos large]
  exact digitsOnto_append h (n / base) [] [n % base]

end digits

/-- Digits are written `0` to `9`, then `A` to `Z`. -/
def symbol (d : Nat) : CodePoint :=
  .scalar (if d < 10 then Char.ofNat (0x30 + d) else Char.ofNat (0x37 + d))

/-- The digits that a numeral may hold: `0` to `9` and `A` to `F`. -/
def digit? : CodePoint → Option Nat
  | .scalar c =>
    if '0' ≤ c ∧ c ≤ '9' then some (c.toNat - 0x30)
    else if 'A' ≤ c ∧ c ≤ 'F' then some (c.toNat - 0x37)
    else none
  | .surrogate _ => none

/-- A number in plain decimal. -/
def decimal (n : Nat) : Text := (digits 10 n).map symbol

/-- An integer in plain decimal, with a minus sign when it is below zero. -/
def signedDecimal (n : Int) : Text :=
  if n < 0 then .scalar '-' :: decimal n.natAbs else decimal n.natAbs

/-- A number in lower-case hexadecimal with at least `width` digits. -/
def hexadecimal (width n : Nat) : Text :=
  Text.padded width '0' <| (digits 16 n).map fun d =>
    .scalar (if d < 10 then Char.ofNat (0x30 + d) else Char.ofNat (0x57 + d))

end DeskCalculator.Numeral
