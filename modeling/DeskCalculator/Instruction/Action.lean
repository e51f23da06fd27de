import DeskCalculator.Text.Basic

/-!
What an instruction asks of the evaluation of its text, beside what it does to the store.
-/

namespace DeskCalculator

inductive Action where
  | proceed
  /-- Skip the name that follows the instruction. -/
  | skipName
  /-- Skip the name and call the register of that name. -/
  | callRegister
  /-- Call the value on top of the stack. -/
  | callTop
  | quit
  /-- Read a numeral from the instruction on. -/
  | numeral
  | string
  | comment
  /-- Turn the sense of the next comparison. -/
  | negate
  /-- Give the rest of the line to the host. -/
  | command
  | unknown (name : Text)
  deriving DecidableEq, Repr

namespace Action

def name : Action → Text
  | proceed => Text.ofString "OKAY"
  | skipName => Text.ofString "EATONE"
  | callRegister => Text.ofString "EVALREG"
  | callTop => Text.ofString "EVALTOS"
  | quit => Text.ofString "QUIT"
  | numeral => Text.ofString "INT"
  | string => Text.ofString "STR"
  | comment => Text.ofString "COMMENT"
  | negate => Text.ofString "NEGCMP"
  | command => Text.ofString "SYSTEM"
  | unknown name => name

/-- The actions that the evaluation knows. -/
def known : List Action :=
  [proceed, skipName, callRegister, callTop, quit, numeral, string, comment, negate, command]

/-- The action of a name. -/
def ofName (name : Text) : Action := (known.find? (·.name = name)).getD (unknown name)

end Action

end DeskCalculator
