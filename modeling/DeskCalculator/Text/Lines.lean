import DeskCalculator.Text.Basic

/-!
Lines of a text. A line ends at a newline; the positions of a text count its code points from zero.
-/

namespace DeskCalculator.Text

def isNewline (c : CodePoint) : Bool := c == .scalar '\n'

/-- The text up to its first newline. -/
def firstLine (t : Text) : Text := t.takeWhile fun c => !isNewline c

/-- The text after its last newline. -/
def lastLine (t : Text) : Text := (t.reverse.takeWhile fun c => !isNewline c).reverse

/-- The line and the column of the position `index`, both counted from one. A position past the
end is taken for the end. -/
def location (t : Text) (index : Nat) : Nat × Nat :=
  let before := t.take index
  (before.countP isNewline + 1, (lastLine before).length + 1)

/-- The line that holds the position `index`, without its newline. -/
def lineAt (t : Text) (index : Nat) : Text :=
  lastLine (t.take index) ++ firstLine (t.drop index)

/-- Every line end is one newline: a carriage return stands for one, and so does the pair of a
carriage return and a newline. -/
def unifyNewlines : Text → Text
  | .scalar '\r' :: .scalar '\n' :: rest => .scalar '\n' :: unifyNewlines rest
  | .scalar '\r' :: rest => .scalar '\n' :: unifyNewlines rest
  | c :: rest => c :: unifyNewlines rest
  | [] => []

end DeskCalculator.Text
