import DeskCalculator.Binary64.Basic

/-!
Division of floats with a remainder. The truncating remainder is computed on the exact integers;
the flooring one takes the sign of the divisor.
-/

namespace DeskCalculator.Binary64

/-- What is left of `x` after taking `y` away as often as it goes in whole, with the sign of `x`. -/
def truncatingRemainder (x y : Float) : Float :=
  match ofFloat x, ofFloat y with
  | .finite negative s e, .finite _ t f =>
    if t = 0 then notANumber
    else
      let low := min e f
      let r := s <<< (e - low).toNat % t <<< (f - low).toNat
      encode negative r low
  | .finite .., .infinite _ => x
  | _, _ => notANumber

/-- A zero with the sign of `x`, which is not read as a number otherwise. -/
def zeroLike (x : Float) : Float :=
  Float.ofBits (UInt64.ofNat (if signBit ≤ x.toBits.toNat then signBit else 0))

/-- The remainder that the divisor is to be added to, since its sign is not the divisor's. -/
def needsDivisor (r y : Float) : Bool := r != 0.0 && (decide (y < 0.0) != decide (r < 0.0))

/-- The remainder with the sign of the divisor `y`. -/
def flooringRemainder (x y : Float) : Float :=
  let r := truncatingRemainder x y
  if r == 0.0 then zeroLike y else if needsDivisor r y then r + y else r

/-- The largest whole float that is not above `x`. -/
def floor (x : Float) : Float :=
  match ofFloat x with
  | .finite negative s e =>
    if 0 ≤ e then x
    else Float.ofInt (Int.fdiv (signed negative s) (1 <<< (-e).toNat : Nat))
  | _ => x

/-- The quotient that goes with `flooringRemainder`. It is rounded to the nearest whole float, since
the division before it may have been inexact; a zero has the sign of the true quotient. -/
def flooringQuotient (x y : Float) : Float :=
  let r := truncatingRemainder x y
  let q := if needsDivisor r y then (x - r) / y - 1.0 else (x - r) / y
  if q == 0.0 then zeroLike (x / y)
  else
    let whole := floor q
    if 0.5 < q - whole then whole + 1.0 else whole

end DeskCalculator.Binary64
