import DeskCalculator.Numeral.Basic
import DeskCalculator.Text.Printable

/-!
Quoted text: a text on one line between quotes, with an escape for everything that would not show.
-/

namespace DeskCalculator.Text

/-- The escape that names an unprintable code point by its number, in the least of three widths. -/
def numberEscape (n : Nat) : Text :=
  if n < 0x100 then ofString "\\x" ++ Numeral.hexadecimal 2 n
  else if n < 0x10000 then ofString "\\u" ++ Numeral.hexadecimal 4 n
  else ofString "\\U" ++ Numeral.hexadecimal 8 n

/-- A double quote encloses a text that holds an apostrophe and no double quote. -/
def quoteMark (t : Text) : CodePoint :=
  if t.contains (.scalar '\x27') && !t.contains (.scalar '"') then .scalar '"' else .scalar '\x27'

def quotedPoint (mark c : CodePoint) : Text :=
  if c = mark ∨ c = .scalar '\\' then [.scalar '\\', c]
  else if c = .scalar '\n' then ofString "\\n"
  else if c = .scalar '\r' then ofString "\\r"
  else if c = .scalar '\t' then ofString "\\t"
  else if c.printable then [c]
  else numberEscape c.number

def quoted (t : Text) : Text :=
  let mark := quoteMark t
  mark :: t.flatMap (quotedPoint mark) ++ [mark]

end DeskCalculator.Text
