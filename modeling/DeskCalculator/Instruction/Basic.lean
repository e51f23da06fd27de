import DeskCalculator.Value.Arithmetic

/-!
The instructions, each named by one character. Every name stands for an instruction; those that mean
nothing stand for the one that is not implemented.
-/

namespace DeskCalculator

inductive Relation where
  | less
  | equal
  | greater
  deriving DecidableEq, Repr

namespace Relation

def symbol : Relation → CodePoint
  | less => .scalar '<'
  | equal => .scalar '='
  | greater => .scalar '>'

def holds : Relation → Ordering → Bool
  | less, o => o == .lt
  | equal, o => o == .eq
  | greater, o => o == .gt

end Relation

inductive Instruction where
  | blank
  | comment
  | numeral
  | string
  | bang
  | operate (op : Operator)
  | divMod
  | compare (r : Relation)
  | squareRoot
  | character
  | clear
  | duplicate
  | swap
  | depth
  | length
  | scaleOf
  | printTop
  | printPop
  | printAll
  | dump
  | setInputBase
  | setOutputBase
  | setScale
  | inputBase
  | outputBase
  | scale
  | call
  | quit
  | quitLevels
  | load
  | store
  | restore
  | save
  | fetchElement
  | storeElement
  | unimplemented
  deriving DecidableEq, Repr

namespace Instruction

def ofChar : Char → Instruction
  | ' ' | '\t' | '\n' => blank
  | '#' => comment
  | '[' => string
  | '!' => bang
  | '+' => operate .add
  | '-' => operate .sub
  | '*' => operate .mul
  | '/' => operate .div
  | '%' => operate .mod
  | '^' => operate .pow
  | '~' => divMod
  | '<' => compare .less
  | '=' => compare .equal
  | '>' => compare .greater
  | 'v' => squareRoot
  | 'a' => character
  | 'c' => clear
  | 'd' => duplicate
  | 'r' => swap
  | 'z' => depth
  | 'Z' => length
  | 'X' => scaleOf
  | 'p' => printTop
  | 'n' => printPop
  | 'f' => printAll
  | 'P' => dump
  | 'i' => setInputBase
  | 'o' => setOutputBase
  | 'k' => setScale
  | 'I' => inputBase
  | 'O' => outputBase
  | 'K' => scale
  | 'x' => call
  | 'q' => quit
  | 'Q' => quitLevels
  | 'l' => load
  | 's' => store
  | 'L' => restore
  | 'S' => save
  | ';' => fetchElement
  | ':' => storeElement
  | '_' | '.' => numeral
  | c => if ('0' ≤ c ∧ c ≤ '9') ∨ ('A' ≤ c ∧ c ≤ 'F') then numeral else unimplemented

def ofName : Text → Instruction
  | [.scalar c] => ofChar c
  | _ => unimplemented

/-- The instructions that are followed by the name of a register or an array. -/
def needsName : Instruction → Bool
  | compare _ | load | store | restore | save | fetchElement | storeElement => true
  | _ => false

end Instruction

end DeskCalculator
