import DeskCalculator.Binary64.Division
import DeskCalculator.Value.Basic

/-!
Arithmetic on values. Integers stay exact, and their division rounds down; a remainder is zero or
has the sign of the divisor, for floats too.
-/

namespace DeskCalculator

/-- The operators that take two operands and leave one result. -/
inductive Operator where
  | add
  | sub
  | mul
  | div
  | mod
  | pow
  deriving DecidableEq, Repr

def Operator.symbol : Operator → CodePoint
  | add => .scalar '+'
  | sub => .scalar '-'
  | mul => .scalar '*'
  | div => .scalar '/'
  | mod => .scalar '%'
  | pow => .scalar '^'

namespace Value

def add (left right : Value) : Except Failure Value := do
  match ← pair '+' left right with
  | .ints a b => .ok (int (a + b))
  | .floats x y => .ok (float (x + y))

def sub (left right : Value) : Except Failure Value := do
  match ← pair '-' left right with
  | .ints a b => .ok (int (a - b))
  | .floats x y => .ok (float (x - y))

def mul (left right : Value) : Except Failure Value := do
  match ← pair '*' left right with
  | .ints a b => .ok (int (a * b))
  | .floats x y => .ok (float (x * y))

def div (left right : Value) : Except Failure Value := do
  match ← pair '/' left right with
  | .ints a b =>
    if b = 0 then .error (.of .divisionByZero (some '/')) else .ok (int (a.fdiv b))
  | .floats x y =>
    if y == 0.0 then .error (.of .divisionByZero (some '/')) else .ok (float (x / y))

def mod (left right : Value) : Except Failure Value := do
  match ← pair '%' left right with
  | .ints a b =>
    if b = 0 then .error (.of .remainderByZero (some '%')) else .ok (int (a.fmod b))
  | .floats x y =>
    if y == 0.0 then .error (.of .remainderByZero (some '%'))
    else .ok (float (Binary64.flooringRemainder x y))

/-- The quotient and the remainder. -/
def divMod (left right : Value) : Except Failure (Value × Value) := do
  match ← pair '~' left right with
  | .ints a b =>
    if b = 0 then .error (.of .divisionByZero (some '~'))
    else .ok (int (a.fdiv b), int (a.fmod b))
  | .floats x y =>
    if y == 0.0 then .error (.of .divisionByZero (some '~'))
    else .ok (float (Binary64.flooringQuotient x y), float (Binary64.flooringRemainder x y))

/-- A power of an integer. The powers of -1, 0 and 1 are known however large the exponent is. -/
def intPow (a : Int) (b : Nat) : Int :=
  if a.natAbs ≤ 1 then if b = 0 then 1 else if b % 2 = 0 then a * a else a else Int.pow a b

/-- A power of floats. Finite operands with an infinite power are out of range. -/
def floatPow (x y : Float) : Except Failure Value :=
  let z := Float.pow x y
  if x.isFinite && y.isFinite && z.isInf then .error (.of (.resultOutOfRange '^') (some '^'))
  else .ok (float z)

/-- A power. An integer to a power below zero is a float. -/
def pow (left right : Value) : Except Failure Value := do
  match ← pair '^' left right with
  | .ints a b =>
    if a = 0 ∧ b < 0 then .error (.of .negativePowerOfZero (some '^'))
    else if 0 ≤ b then .ok (int (intPow a b.toNat))
    else
      match Binary64.ofInt? a, Binary64.ofInt? b with
      | some x, some y => floatPow x y
      | _, _ => .error (.of (.resultOutOfRange '^') (some '^'))
  | .floats x y =>
    if x == 0.0 ∧ y < 0.0 then .error (.of .negativePowerOfZero (some '^'))
    else if x < 0.0 ∧ !(Binary64.ofFloat y).isWhole then
      .error (.of .fractionalPowerOfNegative (some '^'))
    else floatPow x y

def sqrt : Value → Except Failure Value
  | int n =>
    if n < 0 then .error (.of .rootOfNegative (some 'v'))
    else
      match Binary64.ofInt? n with
      | some x => .ok (float x.sqrt)
      | none => .error (.of (.resultOutOfRange 'v') (some 'v'))
  | float x => if x < 0.0 then .error (.of .rootOfNegative (some 'v')) else .ok (float x.sqrt)
  | text _ => .error (.of (.numberExpected 'v') (some 'v'))

def operate : Operator → Value → Value → Except Failure Value
  | .add => add
  | .sub => sub
  | .mul => mul
  | .div => div
  | .mod => mod
  | .pow => pow

theorem intPow_eq (a : Int) (b : Nat) : intPow a b = Int.pow a b := by
  unfold intPow
  split
  · induction b with
    | zero => exact (Int.pow_zero a).symm
    | succ b ih =>
      rw [show Int.pow a (b + 1) = Int.pow a b * a from Int.pow_succ a b, ← ih]
      obtain rfl | rfl | rfl : a = 0 ∨ a = 1 ∨ a = -1 := by omega
      · simp
      · split <;> simp
      · by_cases h : b = 0
        · simp [h]
        · by_cases even : b % 2 = 0
          · rw [if_neg (by omega), if_neg (by omega), if_neg h, if_pos even]
            rfl
          · rw [if_neg (by omega), if_pos (by omega), if_neg h, if_neg even]
  · rfl

end Value

end DeskCalculator
