import DeskCalculator.Decimal.Layout
import DeskCalculator.Numeral.Rendering

/-!
Values: integers of any size, floats and texts. An instruction that wants a number reads it through
the conversions here, which also say what is wrong with a value of another kind.
-/

namespace DeskCalculator

inductive Value where
  | int (n : Int)
  | float (x : Float)
  | text (t : Text)
  deriving DecidableEq, Repr

namespace Value

instance : Inhabited Value := ⟨.int 0⟩

def isNumber : Value → Bool
  | text _ => false
  | _ => true

/-- The integer of a number, a float being rounded toward zero. -/
def toInt (rule : Text) : Value → Except Failure Int
  | int n => .ok n
  | float x => (Binary64.ofFloat x).truncate.mapError fun e => .breakdown (.noInteger e)
  | text _ => .error (.of (.numberExpected rule) rule)

/-- The float nearest to a number. -/
def toFloat? : Value → Option Float
  | int n => Binary64.ofInt? n
  | float x => some x
  | text _ => none

/-- Two numbers of one kind. -/
inductive Pair where
  | ints (a b : Int)
  | floats (x y : Float)
  deriving DecidableEq, Repr

/-- Two numbers as they meet in an operation: an integer beside a float becomes a float. -/
def pair (rule : Text) : Value → Value → Except Failure Pair
  | int a, int b => .ok (.ints a b)
  | left, right =>
    if left.isNumber && right.isNumber then
      match left.toFloat?, right.toFloat? with
      | some x, some y => .ok (.floats x y)
      | _, _ => .error (.of (.operandTooLarge rule) rule)
    else .error (.of (.numbersExpected rule) rule)

/-- How `a` stands to `b`. An integer and a float are compared exactly. -/
def compare (rule : Text) : Value → Value → Except Failure Ordering
  | int a, int b => .ok (Ord.compare a b)
  | int a, float y => .ok ((Binary64.ofFloat y).compareInt a)
  | float x, int b => .ok ((Binary64.ofFloat x).compareInt b).swap
  | float x, float y => .ok (Binary64.compareFloat x y)
  | _, _ => .error (.of (.numbersExpected rule) rule)

/-- The first character of a text, or the character that a number is the code of. -/
def toCharacter (rule : Text) : Value → Except Failure Text
  | text t => .ok (t.take 1)
  | v => do
    let code ← v.toInt rule
    match if code < 0 then none else CodePoint.ofNumber? code.toNat with
    | some c => .ok [c]
    | none => .error (.of (.noCharacter code) rule)

/-- A value as it is printed. -/
def shown (outputBase : Int) : Value → Except Breakdown Text
  | int n => Numeral.render outputBase n
  | float x => .ok (Decimal.plain.text x)
  | text t => .ok t

/-- The length of a value: the digits of an integer and its sign, the characters of a printed float
without its point, the characters of a text. -/
def length (outputBase : Int) (h : 2 ≤ outputBase := by first | assumption | decide) :
    Value → Nat
  | int n =>
    Numeral.count outputBase.toNat n.natAbs (Numeral.two_le_toNat h) + if n < 0 then 1 else 0
  | float x => (Decimal.plain.text x).countP (· != .scalar '.')
  | text t => List.length t

/-- A value with its type, as a listing of values shows it. -/
def listed : Value → Except Breakdown Text
  | int n =>
    if decimalLimit ≤ n.natAbs then .error .numeralTooLong
    else .ok (Text.ofString "Value(type='INT', value=" ++ Numeral.signedDecimal n
      ++ Text.ofString ")")
  | float x =>
    .ok (Text.ofString "Value(type='FLT', value=" ++ Decimal.plain.text x ++ Text.ofString ")")
  | text t =>
    .ok (Text.ofString "Value(type='STR', value=" ++ Text.quoted t ++ Text.ofString ")")

end Value

end DeskCalculator
