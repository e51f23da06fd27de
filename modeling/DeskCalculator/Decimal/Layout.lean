import DeskCalculator.Decimal.Shortest
import DeskCalculator.Numeral.Basic

/-!
The text of a float, and the float of a text.
-/

namespace DeskCalculator.Decimal

/-- The decimal exponents that are written out in full; beyond them an `e` stands before the
exponent. -/
structure Layout where
  least : Int
  greatest : Int

def Layout.exponentText (exponent : Int) : Text :=
  .scalar 'e' :: .scalar (if exponent < 0 then '-' else '+')
    :: Text.padded 2 '0' (Numeral.decimal exponent.natAbs)

/-- Writes the number that has the given digits and `point` of them before its decimal point. A
number written in full has at least one digit on each side of the point. -/
def Layout.write (layout : Layout) (digits : Text) (point : Int) : Text :=
  if layout.least ≤ point - 1 ∧ point - 1 ≤ layout.greatest then
    if point ≤ 0 then
      Text.ofString "0." ++ List.replicate (-point).toNat (.scalar '0') ++ digits
    else if digits.length ≤ point.toNat then
      digits ++ List.replicate (point.toNat - digits.length) (.scalar '0') ++ Text.ofString ".0"
    else digits.take point.toNat ++ .scalar '.' :: digits.drop point.toNat
  else
    match digits with
    | [] => []
    | [d] => d :: Layout.exponentText (point - 1)
    | d :: more => d :: .scalar '.' :: more ++ Layout.exponentText (point - 1)

def Layout.signed (layout : Layout) (negative : Bool) (n : Scaled) : Text :=
  let digits := Numeral.decimal n.digits
  let written := layout.write digits (digits.length + n.exponent)
  if negative then .scalar '-' :: written else written

/-- The text of a float: the shortest decimal that reads back as it. -/
def Layout.text (layout : Layout) (x : Float) : Text :=
  match Binary64.ofFloat x with
  | .nan => Text.ofString "nan"
  | .infinite negative => Text.ofString (if negative then "-inf" else "inf")
  | .finite negative s e => layout.signed negative (shortest s e)

/-- Numbers from 0.0001 up to 10 to the 16th are written in full. -/
def plain : Layout := ⟨-4, 15⟩

def isDigit : CodePoint → Bool
  | .scalar c => decide ('0' ≤ c ∧ c ≤ '9')
  | .surrogate _ => false

/-- The digits after the decimal point that a text starts with. -/
def fractionDigits : Text → Text
  | .scalar '.' :: rest => rest.takeWhile isDigit
  | _ => []

/-- The longest start of a text that is a decimal, digits with or without a point and digits after
it, as the nearest float. A start without any digit is zero. -/
def read (t : Text) : Float :=
  let whole := t.takeWhile isDigit
  let fraction := fractionDigits (t.dropWhile isDigit)
  let digits := (whole ++ fraction).filterMap Numeral.digit?
  if digits.isEmpty then 0.0
  else Float.ofScientific (Numeral.value 10 digits).toNat true fraction.length

end DeskCalculator.Decimal
