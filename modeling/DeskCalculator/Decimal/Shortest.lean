import DeskCalculator.Binary64.Basic

/-!
The shortest decimal that reads back as a given float, and of several such the nearest. The numbers
that read back as `s * 2 ^ e` form an interval around it; its ends, which lie halfway to the
neighbouring floats, belong to it when `s` is even. Grids of powers of ten are tried from the
coarsest: the first with a point in the interval gives the fewest digits.
-/

namespace DeskCalculator.Decimal

/-- The decimal `digits * 10 ^ exponent`. -/
structure Scaled where
  digits : Nat
  exponent : Int
  deriving DecidableEq, Repr

/-- The multiple of `10 ^ k` that reads back as `s * 2 ^ e`, if there is one: the nearest, and of
two as near the even one. Lengths are in units of `2 ^ (e - 2) / a` and of `10 ^ k / b`, so that all
comparisons are between natural numbers. -/
def gridPoint? (s : Nat) (e k : Int) : Option Nat :=
  let a := Nat.pow 10 (-k).toNat <<< (e - 2).toNat
  let b := Nat.pow 10 k.toNat <<< (2 - e).toNat
  let lower := (4 * s - if s = Binary64.leadingBit ∧ -1074 < e then 1 else 2) * a
  let upper := (4 * s + 2) * a
  let target := 4 * s * a
  let inside (c : Nat) : Bool :=
    if s % 2 = 0 then lower ≤ c * b && c * b ≤ upper else lower < c * b && c * b < upper
  let c := target / b
  match inside c, inside (c + 1) with
  | true, true =>
    let below := target - c * b
    let above := (c + 1) * b - target
    some (if below < above ∨ below = above ∧ c % 2 = 0 then c else c + 1)
  | true, false => some c
  | false, true => some (c + 1)
  | false, false => none

/-- The first grid from `10 ^ k` downward that has a point, in at most `tries` tries. -/
def firstGridPoint (s : Nat) (e : Int) : Nat → Int → Scaled
  | 0, k => ⟨0, k⟩
  | tries + 1, k =>
    match gridPoint? s e k with
    | some c => ⟨c, k⟩
    | none => firstGridPoint s e tries (k - 1)

/-- The shortest decimal of `s * 2 ^ e`. The search starts above the number, as 0.30103 exceeds the
decimal logarithm of two, and seventeen digits always suffice. -/
def shortest (s : Nat) (e : Int) : Scaled :=
  if s = 0 then ⟨0, 0⟩
  else firstGridPoint s e 25 ((s.log2 + 1 + e) * 30103 / 100000 + 2)

end DeskCalculator.Decimal
