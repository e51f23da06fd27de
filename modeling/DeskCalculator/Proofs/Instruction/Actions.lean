import DeskCalculator.Instruction.Perform
import DeskCalculator.Proofs.Activity

/-!
How instructions are written, and which actions they may ask for. Most instructions have a character
of their own. Most ask to proceed; a comparison asks for its register to be called or skipped, and
only a quit asks to quit.
-/

namespace DeskCalculator.Instruction

open Store

/-- The character that an instruction is written with, if there is but one. -/
def sign? : Instruction → Option Char
  | blank | numeral | unimplemented => none
  | comment => some '#'
  | string => some '['
  | bang => some '!'
  | operate .add => some '+'
  | operate .sub => some '-'
  | operate .mul => some '*'
  | operate .div => some '/'
  | operate .mod => some '%'
  | operate .pow => some '^'
  | divMod => some '~'
  | compare .less => some '<'
  | compare .equal => some '='
  | compare .greater => some '>'
  | squareRoot => some 'v'
  | character => some 'a'
  | clear => some 'c'
  | duplicate => some 'd'
  | swap => some 'r'
  | depth => some 'z'
  | length => some 'Z'
  | scaleOf => some 'X'
  | printTop => some 'p'
  | printPop => some 'n'
  | printAll => some 'f'
  | dump => some 'P'
  | setInputBase => some 'i'
  | setOutputBase => some 'o'
  | setScale => some 'k'
  | inputBase => some 'I'
  | outputBase => some 'O'
  | scale => some 'K'
  | call => some 'x'
  | quit => some 'q'
  | quitLevels => some 'Q'
  | load => some 'l'
  | store => some 's'
  | restore => some 'L'
  | save => some 'S'
  | fetchElement => some ';'
  | storeElement => some ':'

theorem sign?_ofChar (c : Char) : ∀ sign ∈ (ofChar c).sign?, sign = c := by
  -- Only the last case is no single character but a range of them.
  unfold ofChar
  split <;> first | (split <;> simp [sign?]) | simp [sign?]

/-- An instruction is written with its own character only. -/
theorem eq_of_sign? {ch : CodePoint} {i : Instruction} {sign : Char} (h : ofName [ch] = i)
    (only : i.sign? = some sign) : ch = .scalar sign := by
  subst h
  cases ch with
  | surrogate => cases only
  | scalar c => rw [sign?_ofChar c sign only]

def actions (next : Option Text) : Instruction → List Action
  | comment => [.comment]
  | numeral => [.numeral]
  | string => [.string]
  | bang => if next.any isComparison then [.negate] else [.command]
  | compare _ => [.callRegister, .skipName]
  | call => [.callTop]
  | quit | quitLevels => [.quit]
  | load | store | restore | save | fetchElement | storeElement => [.skipName]
  | _ => [.proceed]

/-- An answer that asks for one of `actions`. -/
def Asks (actions : List Action) (r : Response) : Prop := r.action ∈ actions

theorem asks_pure {r : Response} {rest : List Action} :
    Answers (Asks (r.action :: rest)) (pure r : Calculation Response) :=
  .pure List.mem_cons_self

theorem asks_fail (actions : List Action) (failure : Failure) :
    Answers (Asks actions) (fail failure) := by
  intro s r s' h
  cases h

theorem asks_pushInt (n : Int) : Answers (Asks [.proceed]) (pushInt n) :=
  .bind fun _ => asks_pure

theorem asks_performCompare (r : Relation) (turned : Bool) :
    Answers (Asks [.callRegister, .skipName]) (performCompare r turned) := by
  refine .bind fun upper => .bind fun lower => .bind fun order => .pure ?_
  by_cases h : r.holds order != turned <;> simp [Asks, h]

theorem asks_performDump : Answers (Asks [.proceed]) performDump := by
  refine .bind fun v => ?_
  cases v with
  | text => exact asks_pure
  | int | float => exact .bind fun _ => asks_pure

/-- What an instruction asks for is among its actions. -/
theorem asks_perform (next : Option Text) (turned : Bool) (i : Instruction) :
    Answers (Asks (i.actions next)) (i.perform next turned) := by
  cases i with
  | blank | comment | numeral | string | call => exact asks_pure
  | bang =>
    change Answers (Asks (if next.any isComparison then _ else _))
      (if next.any isComparison then _ else _)
    split
    · exact asks_pure
    · exact asks_pure
  | unimplemented => exact asks_fail _ _
  | clear | printTop | printPop | printAll | quit => exact .bind fun _ => asks_pure
  | duplicate => exact .bind fun _ => .bind fun _ => asks_pure
  | operate | swap => exact .bind fun _ => .bind fun _ => .bind fun _ => .bind fun _ => asks_pure
  | divMod =>
    exact .bind fun _ => .bind fun _ => .bind fun (_, _) => .bind fun _ => .bind fun _ => asks_pure
  | compare r => exact asks_performCompare r turned
  | squareRoot | character => exact .bind fun _ => .bind fun _ => .bind fun _ => asks_pure
  | depth | inputBase | outputBase | scale => exact .bind fun _ => asks_pushInt _
  | length => exact .bind fun _ => .bind fun _ => asks_pushInt _
  | scaleOf => exact .bind fun _ => .ite (asks_fail _ _) (asks_pushInt _)
  | dump => exact asks_performDump
  | setInputBase | setScale | quitLevels =>
    exact .bind fun _ => .ite (.bind fun _ => asks_pure) (asks_fail _ _)
  | setOutputBase =>
    refine .bind fun n => ?_
    split
    · exact .bind fun _ => asks_pure
    · exact asks_fail _ _
  | load => exact .bind fun _ => .bind fun _ => asks_pure
  | store | restore | save => exact .bind fun _ => .bind fun _ => .bind fun _ => asks_pure
  | storeElement =>
    exact .bind fun _ => .bind fun _ => .bind fun _ => .bind fun _ => .bind fun _ => asks_pure
  | fetchElement =>
    exact .bind fun _ => .bind fun _ => .bind fun _ => .bind fun _ => asks_pure

theorem quits_of_asks_quit {next : Option Text} {i : Instruction} (h : .quit ∈ i.actions next) :
    i = .quit ∨ i = .quitLevels := by
  cases i with
  | quit => exact .inl rfl
  | quitLevels => exact .inr rfl
  | bang =>
    change Action.quit ∈ if next.any isComparison then _ else _ at h
    split at h <;> simp at h
  | _ => simp [actions] at h

end DeskCalculator.Instruction
