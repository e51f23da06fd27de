import DeskCalculator.Binary64.Basic
import DeskCalculator.Text.Utf8

/-!
What can go wrong. A *fault* is the program's: its cause is told in the calculator's own words, with
the instruction that met it. A *breakdown* is not: the machine underneath refused an operation. Both
are failures. A fault whose message would have to quote too long a number is a breakdown instead.
-/

namespace DeskCalculator

/-- The kinds of fault, as reports name them. -/
inductive Kind where
  | runtime
  | stackEmpty
  | endOfInput
  | unimplemented
  | invalidParameter
  | divisionByZero
  | missingKey
  | typeMismatch
  deriving DecidableEq, Repr

def Kind.name : Kind → Text
  | runtime => Text.ofString "DCRuntimeError"
  | stackEmpty => Text.ofString "StackEmptyError"
  | endOfInput => Text.ofString "EndOfInputError"
  | unimplemented => Text.ofString "UnimplementedInstructionError"
  | invalidParameter => Text.ofString "InvalidParameterError"
  | divisionByZero => Text.ofString "DivisionByZeroError"
  | missingKey => Text.ofString "MissingKeyError"
  | typeMismatch => Text.ofString "TypeMismatchError"

inductive Breakdown where
  /-- An infinite float, or one that is no number, where an integer is needed. -/
  | noInteger (x : Binary64.NonFinite)
  /-- An integer of too many digits to be written in decimal. -/
  | numeralTooLong
  | baseZero
  /-- A position outside a text. -/
  | pastEnd
  | notADigit (c : CodePoint)
  | unencodable (failure : Utf8.EncodingFailure)
  | undecodable (failure : Utf8.DecodingFailure)
  | nullInName
  /-- Stated by the host, with the host's name for its kind. -/
  | external (kind message : Text)
  deriving DecidableEq, Repr

def Breakdown.message : Breakdown → Text
  | noInteger .infinite => Text.ofString "cannot convert float infinity to integer"
  | noInteger .nan => Text.ofString "cannot convert float NaN to integer"
  | numeralTooLong =>
    Text.ofString "Exceeds the limit (4300 digits) for integer string conversion; "
      ++ Text.ofString "use sys.set_int_max_str_digits() to increase the limit"
  | baseZero => Text.ofString "integer division or modulo by zero"
  | pastEnd => Text.ofString "string index out of range"
  | notADigit c => Text.quoted [c]
  | unencodable failure => failure.message
  | undecodable failure => failure.message
  | nullInName => Text.ofString "embedded null byte"
  | external _ message => message

inductive Cause where
  | stackEmpty
  /-- The name of a register or an array is missing after an instruction. -/
  | missingName (instruction : Text)
  | notImplemented
  | scaleOfNumber
  | numberExpected (rule : Text)
  | numbersExpected (rule : Text)
  | divisionByZero
  | remainderByZero
  | negativePowerOfZero
  | fractionalPowerOfNegative
  | rootOfNegative
  | operandTooLarge (rule : Text)
  | resultOutOfRange (rule : Text)
  | noCharacter (code : Int)
  | inputBase (n : Int)
  | outputBase (n : Int)
  | negativeScale (n : Int)
  | quitLevels (n : Int)
  | negativeIndex (i : Int)
  | emptyRegister (name : Text)
  | emptyArray (name : Text)
  | missingElement (name : Text) (i : Int)
  | unknownAction (name : Text)
  | commandFailed (reason : Text)
  | internal (b : Breakdown)
  /-- Stated by the host. -/
  | external (kind : Kind) (message : Text)
  deriving DecidableEq, Repr

namespace Cause

def kind : Cause → Kind
  | stackEmpty => .stackEmpty
  | missingName _ => .endOfInput
  | notImplemented | scaleOfNumber => .unimplemented
  | numberExpected _ | numbersExpected _ => .typeMismatch
  | divisionByZero | remainderByZero | negativePowerOfZero => .divisionByZero
  | fractionalPowerOfNegative | rootOfNegative | operandTooLarge _ | resultOutOfRange _ =>
    .invalidParameter
  | noCharacter _ | inputBase _ | outputBase _ | negativeScale _ | quitLevels _
  | negativeIndex _ => .invalidParameter
  | emptyRegister _ | emptyArray _ | missingElement _ _ => .missingKey
  | unknownAction _ | commandFailed _ | internal _ => .runtime
  | external kind _ => kind

/-- The integer that the message quotes, if it quotes one. -/
def quotedInteger? : Cause → Option Int
  | noCharacter n | inputBase n | outputBase n | negativeScale n | quitLevels n
  | negativeIndex n | missingElement _ n => some n
  | _ => none

def message : Cause → Text
  | stackEmpty => Text.ofString "stack empty"
  | missingName instruction =>
    Text.ofString "'" ++ instruction ++ Text.ofString "' needs a register name"
  | notImplemented => Text.ofString "instruction not implemented"
  | scaleOfNumber => Text.ofString "scale of a number is not implemented"
  | numberExpected rule => rule ++ Text.ofString " expects a number"
  | numbersExpected rule => rule ++ Text.ofString " expects numeric operands"
  | divisionByZero => Text.ofString "divide by zero"
  | remainderByZero => Text.ofString "remainder by zero"
  | negativePowerOfZero => Text.ofString "zero raised to a negative power"
  | fractionalPowerOfNegative => Text.ofString "negative base with fractional exponent"
  | rootOfNegative => Text.ofString "square root of negative number"
  | operandTooLarge rule => rule ++ Text.ofString " operand too large for a float"
  | resultOutOfRange rule => rule ++ Text.ofString " result out of range"
  | noCharacter n => Numeral.signedDecimal n ++ Text.ofString " is not a character code"
  | inputBase n =>
    Text.ofString "input base " ++ Numeral.signedDecimal n ++ Text.ofString " out of range"
  | outputBase n =>
    Text.ofString "output base " ++ Numeral.signedDecimal n ++ Text.ofString " out of range"
  | negativeScale n =>
    Text.ofString "scale " ++ Numeral.signedDecimal n ++ Text.ofString " is negative"
  | quitLevels n =>
    Text.ofString "cannot quit " ++ Numeral.signedDecimal n ++ Text.ofString " levels"
  | negativeIndex i =>
    Text.ofString "array index " ++ Numeral.signedDecimal i ++ Text.ofString " is negative"
  | emptyRegister name => Text.ofString "register '" ++ name ++ Text.ofString "' is empty"
  | emptyArray name => Text.ofString "array '" ++ name ++ Text.ofString "' is empty"
  | missingElement name i =>
    Text.ofString "array '" ++ name ++ Text.ofString "' has no element " ++ Numeral.signedDecimal i
  | unknownAction name => Text.ofString "Unknown control action " ++ name
  | commandFailed reason => Text.ofString "command failed: " ++ reason
  | internal b => Text.ofString "Internal interpreter error: " ++ b.message
  | external _ message => message

end Cause

/-- A fault of the program and, once it is known, the instruction that met it. -/
structure Fault where
  cause : Cause
  instruction : Option Text := none
  deriving DecidableEq, Repr

inductive Failure where
  | fault (f : Fault)
  | breakdown (b : Breakdown)
  deriving DecidableEq, Repr

/-- The least number of more than 4300 decimal digits. -/
def decimalLimit : Nat := Nat.pow 10 4300

namespace Failure

/-- The failure of a cause: its fault, unless the message would quote too long a number. -/
def of (cause : Cause) (instruction : Option Text := none) : Failure :=
  match cause.quotedInteger? with
  | some n =>
    if decimalLimit ≤ n.natAbs then .breakdown .numeralTooLong else .fault ⟨cause, instruction⟩
  | none => .fault ⟨cause, instruction⟩

/-- Ascribes a fault to an instruction, unless it is ascribed already. -/
def ascribe (instruction : Text) : Failure → Failure
  | fault f => fault { f with instruction := f.instruction <|> some instruction }
  | breakdown b => breakdown b

end Failure

end DeskCalculator
