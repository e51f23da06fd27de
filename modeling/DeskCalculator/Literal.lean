import DeskCalculator.Text.Lines
import DeskCalculator.Value.Basic

/-!
What literals, comments and blanks look like at the start of a text. Each scanner says how much of
the text it takes; none of them depends on anything but the text, save that the digits of a numeral
are read in the input base.
-/

namespace DeskCalculator.Literal

/-- A digit or a decimal point. -/
def isNumeralBody (c : CodePoint) : Bool := (Numeral.digit? c).isSome || c == .scalar '.'

/-- The numeral that a text starts with: at most one `_`, then digits and decimal points. -/
def numeralRun : Text → Text
  | .scalar '_' :: rest => .scalar '_' :: rest.takeWhile isNumeralBody
  | t => t.takeWhile isNumeralBody

/-- The number that digits and decimal points stand for. A decimal point makes it a float, which is
read in base ten. -/
def unsignedNumber (base : Int) (body : Text) : Value :=
  if body.contains (.scalar '.') then .float (Decimal.read body)
  else .int (Numeral.leading base body)

def negated : Value → Value
  | .int n => .int (-n)
  | .float x => .float (-x)
  | .text t => .text t

/-- The value of a numeral; a leading `_` makes it negative. -/
def number (base : Int) : Text → Value
  | .scalar '_' :: body => negated (unsignedNumber base body)
  | body => unsignedNumber base body

/-- The position of the bracket that closes a string, `depth` further brackets being open. -/
def closing? : Nat → Text → Option Nat
  | _, [] => none
  | depth, c :: rest =>
    if c = .scalar '[' then (closing? (depth + 1) rest).map (· + 1)
    else if c = .scalar ']' then
      match depth with
      | 0 => some 0
      | depth + 1 => (closing? depth rest).map (· + 1)
    else (closing? depth rest).map (· + 1)

def isBlank (c : CodePoint) : Bool :=
  c == .scalar ' ' || c == .scalar '\t' || c == .scalar '\n'

/-- How many characters the blanks and comments take that a text starts with. A comment runs from
`#` through the end of its line; `comment` tells whether the text starts inside one. -/
def blankLength (comment : Bool) : Text → Nat
  | [] => 0
  | c :: rest =>
    if comment then blankLength (!Text.isNewline c) rest + 1
    else if c = .scalar '#' then blankLength true rest + 1
    else if isBlank c then blankLength false rest + 1
    else 0

end DeskCalculator.Literal
