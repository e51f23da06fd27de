import DeskCalculator.Fault

/-!
Integers written in any base, and read in any base.
-/

namespace DeskCalculator.Numeral

/-- Digits in a base below zero. Quotients are rounded down, so the digits run from `base + 1` to
zero; `steps` of them suffice. -/
def negativeBaseDigits (base : Int) : Nat → Int → List Int → List Int
  | 0, _, ds => ds
  | steps + 1, n, ds =>
    let q := n.fdiv base
    let ds := n.fmod base :: ds
    if q = 0 then ds else negativeBaseDigits base steps q ds

/-- The character of a digit in a base below zero. A digit below zero is taken from the end of the
alphabet. -/
def negativeBaseSymbol (d : Int) : Except Breakdown CodePoint :=
  if d = 0 then .ok (symbol 0)
  else if d < -36 then .error .pastEnd
  else .ok (symbol (d + 36).toNat)

/-- A digit as a group of its own: a space, then the digit in decimal. -/
def group (width d : Nat) : Text := .scalar ' ' :: Text.padded width '0' (decimal d)

/-- The characters of `n` in `base`: one for each digit up to base 36, and a group for each digit in
a larger base. The width of the groups is that of the largest digit, and a base whose largest digit
is too long to be written in decimal is refused. In base one there is no end of zeros, for which no
memory is enough, unless `n` is zero itself. -/
def renderMagnitude (base : Int) (n : Nat) : Except Breakdown Text :=
  if h : 2 ≤ base then
    if base ≤ 36 then .ok ((digits base.toNat n (two_le_toNat h)).map symbol)
    else if decimalLimit ≤ (base - 1).toNat then .error .numeralTooLong
    else .ok ((digits base.toNat n (two_le_toNat h)).flatMap (group (decimal (base - 1).toNat).length))
  else if base = 0 then .error .baseZero
  else if base < 0 then
    (negativeBaseDigits base (n + 2) n []).mapM negativeBaseSymbol
  else if n = 0 then .ok [symbol 0]
  else .error (.external (Text.ofString "MemoryError") [])

/-- An integer written in `base`, with a minus sign in front when it is below zero. -/
def render (base n : Int) : Except Breakdown Text :=
  if n < 0 then (.scalar '-' :: ·) <$> renderMagnitude base n.natAbs
  else renderMagnitude base n.natAbs

/-- Whether `c` is a digit below `base`. -/
def fits (base : Int) (c : CodePoint) : Bool :=
  match digit? c with
  | some d => d < base
  | none => false

/-- The number that the digits at the start of a text stand for, up to the first that does not fit
the base. -/
def leading (base : Int) (t : Text) : Int :=
  value base ((t.takeWhile (fits base)).filterMap digit?)

/-- Reads a text of digits. A digit too large for the base ends the reading; another character is
refused. -/
def read (base : Int) (t : Text) : Except Breakdown Int :=
  match t.dropWhile (fits base) with
  | [] => .ok (leading base t)
  | c :: _ => if (digit? c).isSome then .ok (leading base t) else .error (.notADigit c)

end DeskCalculator.Numeral
