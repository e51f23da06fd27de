/-!
The number that a float stands for. A finite float is an integer times a power of two, and whatever
has to be exact about it (truncation, comparison with an integer, whether it is whole) is computed
on that integer.
-/

namespace DeskCalculator

/-- What a float stands for; a finite one is `significand * 2 ^ exponent`, or its negative. -/
inductive Binary64 where
  | nan
  | infinite (negative : Bool)
  | finite (negative : Bool) (significand : Nat) (exponent : Int)
  deriving DecidableEq, Repr

namespace Binary64

/-- The leading bit of a significand of full length. It is not stored. -/
def leadingBit : Nat := 0x10000000000000

/-- The bit that makes a float negative. -/
def signBit : Nat := 0x8000000000000000

/-- Below the normal range, significands are shorter and the exponent is -1074. -/
def ofFloat (x : Float) : Binary64 :=
  let bits := x.toBits.toNat
  let negative := decide (signBit ≤ bits)
  let biased : Nat := bits / leadingBit % 0x800
  let fraction : Nat := bits % leadingBit
  if biased = 0x7FF then if fraction = 0 then infinite negative else nan
  else if biased = 0 then finite negative fraction (-1074)
  else finite negative (leadingBit + fraction) (biased - 1075)

def notANumber : Float := 0.0 / 0.0

/-- The float of `significand * 2 ^ exponent`, for a significand below `2 ^ 53` and an exponent from
-1074 to 971. -/
def encode (negative : Bool) (significand : Nat) (exponent : Int) : Float :=
  let shift := min (52 - significand.log2) (exponent + 1074).toNat
  let s := significand <<< shift
  let biased := (exponent - shift + 1075).toNat
  let magnitude := if s < leadingBit then s else biased * leadingBit + (s - leadingBit)
  Float.ofBits (UInt64.ofNat (if negative then signBit + magnitude else magnitude))

def signed (negative : Bool) (n : Nat) : Int := if negative then -n else n

/-- Why a float has no integer. -/
inductive NonFinite where
  | infinite
  | nan
  deriving DecidableEq, Repr

/-- The integer part, rounded toward zero. -/
def truncate : Binary64 → Except NonFinite Int
  | nan => .error .nan
  | infinite _ => .error .infinite
  | finite negative s e =>
    .ok (signed negative (if 0 ≤ e then s <<< e.toNat else s >>> (-e).toNat))

def isWhole : Binary64 → Bool
  | finite _ s e => decide (0 ≤ e) || s % 1 <<< (-e).toNat == 0
  | _ => false

/-- How the integer `n` stands to the float, without rounding either. It is level with a float that
is no number. -/
def compareInt (n : Int) : Binary64 → Ordering
  | nan => .eq
  | infinite negative => if negative then .gt else .lt
  | finite negative s e =>
    if 0 ≤ e then compare n (signed negative (s <<< e.toNat))
    else compare (n * (1 <<< (-e).toNat : Nat)) (signed negative s)

/-- How two floats stand to each other. A float that is no number is level with every float. -/
def compareFloat (x y : Float) : Ordering := if x < y then .lt else if y < x then .gt else .eq

/-- The float nearest to an integer, a tie going to the even significand; none where that would be
infinite. -/
def ofInt? (n : Int) : Option Float :=
  if n.natAbs.log2 < 1024 then
    let x := Float.ofInt n
    if x.isInf then none else some x
  else none

end Binary64

end DeskCalculator
