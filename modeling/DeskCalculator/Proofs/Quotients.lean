import DeskCalculator.Proofs.Instruction.Levels

/-!
The three divisions: for the quotient, for the remainder, and for both at once. Whatever the operands
are, all three give a result or all three are refused with faults of one kind. On integers the third
gives what the other two give, and these are the quotient rounded down and the remainder with the sign
of the divisor. So its instruction leaves what the other two leave, each having been given its own
copy of the operands.
-/

namespace DeskCalculator

namespace Value

/-- What it is a fault of to divide `left` by `right`: a text is no number, an integer may be too
large to become a float beside one, and nothing is divided by zero. -/
inductive Indivisible (left right : Value) : Kind → Prop where
  | noNumber (text : left.isNumber = false ∨ right.isNumber = false) :
      Indivisible left right .typeMismatch
  | tooLarge {n : Int} {x : Float}
      (mixed : left = int n ∧ right = float x ∨ left = float x ∧ right = int n)
      (large : Binary64.ofInt? n = none) : Indivisible left right .invalidParameter
  | zero {a : Int} (dividend : left = int a) (divisor : right = int 0) :
      Indivisible left right .divisionByZero
  | zeroFloat {x y z : Float} (floats : left = float z ∨ right = float z)
      (dividend : left.toFloat? = some x) (divisor : right.toFloat? = some y)
      (zero : (y == 0.0) = true) : Indivisible left right .divisionByZero

/-- Answers that are all given, or that are all refused with faults of one of the kinds. -/
inductive Alike {α β γ : Type} (kinds : Kind → Prop) :
    Except Failure α → Except Failure β → Except Failure γ → Prop where
  | given (a : α) (b : β) (c : γ) : Alike kinds (.ok a) (.ok b) (.ok c)
  | refused {f g h : Fault} (kind : kinds f.cause.kind) (second : g.cause.kind = f.cause.kind)
      (third : h.cause.kind = f.cause.kind) :
      Alike kinds (.error (.fault f)) (.error (.fault g)) (.error (.fault h))

/-- How two values meet in an operation, whichever it is. -/
inductive Meeting (left right : Value) : Prop where
  | ints {a b : Int} (dividend : left = int a) (divisor : right = int b)
  | floats {x y z : Float} (some : left = float z ∨ right = float z)
      (dividend : left.toFloat? = .some x) (divisor : right.toFloat? = .some y)
      (met : ∀ rule, pair rule left right = .ok (.floats x y))
  | tooLarge {n : Int} {x : Float}
      (mixed : left = int n ∧ right = float x ∨ left = float x ∧ right = int n)
      (large : Binary64.ofInt? n = none)
      (met : ∀ rule, pair rule left right = .error (.fault ⟨.operandTooLarge rule, rule⟩))
  | noNumber (text : left.isNumber = false ∨ right.isNumber = false)
      (met : ∀ rule, pair rule left right = .error (.fault ⟨.numbersExpected rule, rule⟩))

theorem meeting (left right : Value) : Meeting left right := by
  cases left with
  | text t => exact .noNumber (.inl rfl) fun _ => rfl
  | int a =>
    cases right with
    | text t => exact .noNumber (.inr rfl) fun _ => rfl
    | int b => exact .ints rfl rfl
    | float y =>
      cases large : Binary64.ofInt? a with
      | none =>
        refine .tooLarge (.inl ⟨rfl, rfl⟩) large fun rule => ?_
        simp only [pair, toFloat?, large]
        rfl
      | some x =>
        refine .floats (.inr rfl) large rfl fun rule => ?_
        simp only [pair, toFloat?, large]
        rfl
  | float x =>
    cases right with
    | text t => exact .noNumber (.inr rfl) fun _ => rfl
    | float y => exact .floats (.inl rfl) rfl rfl fun _ => rfl
    | int b =>
      cases large : Binary64.ofInt? b with
      | none =>
        refine .tooLarge (.inr ⟨rfl, rfl⟩) large fun rule => ?_
        simp only [pair, toFloat?, large]
        rfl
      | some y =>
        refine .floats (.inl rfl) rfl large fun rule => ?_
        simp only [pair, toFloat?, large]
        rfl

/-- The three divisions give a result or are refused alike. -/
theorem divisions_alike (left right : Value) :
    Alike (Indivisible left right) (div left right) (mod left right) (divMod left right) := by
  obtain ⟨rfl, rfl⟩ | ⟨some, dividend, divisor, met⟩ | ⟨mixed, large, met⟩ | ⟨text, met⟩ :=
    meeting left right
  · rename_i a b
    by_cases zero : b = 0
    · subst zero
      exact .refused (.zero rfl rfl) rfl rfl
    · simp only [div, mod, divMod, pair, bind, Except.bind, if_neg zero]
      exact .given _ _ _
  · rename_i x y z
    simp only [div, mod, divMod, met, bind, Except.bind]
    by_cases zero : (y == 0.0) = true
    · simp only [if_pos zero]
      exact .refused (.zeroFloat some dividend divisor zero) rfl rfl
    · simp only [if_neg zero]
      exact .given _ _ _
  · simp only [div, mod, divMod, met, bind, Except.bind]
    exact .refused (.tooLarge mixed large) rfl rfl
  · simp only [div, mod, divMod, met, bind, Except.bind]
    exact .refused (.noNumber text) rfl rfl

/-- The quotient of two integers and the remainder that goes with it, which has the sign of the
divisor. -/
theorem exists_quotient (a : Int) {b : Int} (nonzero : b ≠ 0) :
    ∃ q r, div (int a) (int b) = .ok (int q) ∧ mod (int a) (int b) = .ok (int r) ∧
      divMod (int a) (int b) = .ok (int q, int r) ∧ a = q * b + r ∧
      (r = 0 ∨ r.sign = b.sign) ∧ r.natAbs < b.natAbs := by
  refine ⟨a.fdiv b, a.fmod b, if_neg nonzero, if_neg nonzero, if_neg nonzero, ?_⟩
  obtain positive | negative : 0 < b ∨ b < 0 := by omega
  · obtain ⟨parts, nonneg, less⟩ := (Int.fdiv_fmod_unique positive).mp ⟨rfl, rfl⟩
    refine ⟨by rw [Int.mul_comm, Int.add_comm, parts], ?_, by omega⟩
    obtain zero | above : a.fmod b = 0 ∨ 0 < a.fmod b := by omega
    · exact .inl zero
    · exact .inr ((Int.sign_eq_one_of_pos above).trans (Int.sign_eq_one_of_pos positive).symm)
  · obtain ⟨parts, less, nonpos⟩ := (Int.fdiv_fmod_unique' negative).mp ⟨rfl, rfl⟩
    refine ⟨by rw [Int.mul_comm, Int.add_comm, parts], ?_, by omega⟩
    obtain zero | below : a.fmod b = 0 ∨ a.fmod b < 0 := by omega
    · exact .inl zero
    · exact .inr
        ((Int.sign_eq_neg_one_of_neg below).trans (Int.sign_eq_neg_one_of_neg negative).symm)

end Value

namespace Store

variable {α : Type} {g : Value → Value → Calculation α} {s : Store}

/-- Two values are taken, the upper one first. -/
theorem pop_pop {right left : Value} {rest : List Value} (stack : s.stack = right :: left :: rest) :
    (do
      let right ← pop
      let left ← pop
      g right left) s = g right left { s with stack := rest } := by
  simp only [bind_apply, pop, stack]

theorem pop_pop_short (short : s.stack.length < 2) :
    (do
      let right ← pop
      let left ← pop
      g right left) s = .error (.of .stackEmpty) { s with stack := [] } := by
  match stack : s.stack with
  | [] =>
    simp only [bind_apply, pop, stack]
    rw [← stack]
  | [_] => simp only [bind_apply, pop, stack]
  | _ :: _ :: rest =>
    simp only [stack, List.length_cons] at short
    omega

end Store

namespace Overrides

open Instruction Store

variable {next : Option Text} {turned : Bool} {s : Store} {left right : Value} {rest : List Value}

/-- An operator takes the upper two values, and leaves its result if it has one. -/
theorem perform_operation {sign : Char} {op : Operator} (written : ofChar sign = .operate op)
    (stack : s.stack = right :: left :: rest) :
    Overrides.perform {} [.scalar sign] next turned s =
      match Value.operate op left right with
      | .ok v => .ok {} { s with stack := v :: rest }
      | .error failure => .error (failure.ascribe sign) { s with stack := rest } := by
  have named : ofName [.scalar sign] = .operate op := written
  rw [builtIn_perform, if_neg (by simp [named, needsName]), named, Instruction.perform,
    performOperator, pop_pop stack, bind_apply]
  cases Value.operate op left right <;> rfl

theorem perform_operation_short {sign : Char} {op : Operator} (written : ofChar sign = .operate op)
    (short : s.stack.length < 2) :
    Overrides.perform {} [.scalar sign] next turned s =
      .error (.fault ⟨.stackEmpty, some sign⟩) { s with stack := [] } := by
  have named : ofName [.scalar sign] = .operate op := written
  rw [builtIn_perform, if_neg (by simp [named, needsName]), named, Instruction.perform,
    performOperator, pop_pop_short short]
  rfl

theorem perform_divMod (stack : s.stack = right :: left :: rest) :
    Overrides.perform {} [.scalar '~'] next turned s =
      match Value.divMod left right with
      | .ok (q, r) => .ok {} { s with stack := r :: q :: rest }
      | .error failure => .error (failure.ascribe '~') { s with stack := rest } := by
  have named : ofName [.scalar '~'] = .divMod := rfl
  rw [builtIn_perform, if_neg (by simp [named, needsName]), named, Instruction.perform,
    performDivMod, pop_pop stack, bind_apply]
  cases Value.divMod left right <;> rfl

theorem perform_divMod_short (short : s.stack.length < 2) :
    Overrides.perform {} [.scalar '~'] next turned s =
      .error (.fault ⟨.stackEmpty, some '~'⟩) { s with stack := [] } := by
  have named : ofName [.scalar '~'] = .divMod := rfl
  rw [builtIn_perform, if_neg (by simp [named, needsName]), named, Instruction.perform,
    performDivMod, pop_pop_short short]
  rfl

/-- Divides the upper two values, and then takes the remainder of another copy of them. -/
def divideApart (next : Option Text) (turned : Bool) : Calculation Response := do
  let copy ← read (·.stack.take 2)
  let _ ← Overrides.perform {} [.scalar '/'] next turned
  update fun s => { s with stack := copy ++ s.stack }
  Overrides.perform {} [.scalar '%'] next turned

theorem divideApart_eq (next : Option Text) (turned : Bool) (s : Store) :
    divideApart next turned s =
      match Overrides.perform {} [.scalar '/'] next turned s with
      | .ok _ t =>
        Overrides.perform {} [.scalar '%'] next turned
          { t with stack := s.stack.take 2 ++ t.stack }
      | .error failure t => .error failure t := by
  simp only [divideApart, bind_apply, Store.read, Store.update]
  cases Overrides.perform {} [.scalar '/'] next turned s <;> rfl

/-- Unless there is a float among the operands, both ways of dividing leave the same. -/
theorem left_divideApart (next : Option Text) (turned : Bool)
    (floatless : ∀ v ∈ s.stack.take 2, ∀ x, v ≠ .float x) :
    leftState (Overrides.perform {} [.scalar '~'] next turned s) =
      leftState (divideApart next turned s) := by
  rw [divideApart_eq]
  by_cases short : s.stack.length < 2
  · rw [perform_divMod_short short, perform_operation_short rfl short]
    rfl
  · obtain ⟨right, left, rest, stack⟩ : ∃ right left rest, s.stack = right :: left :: rest := by
      match stack : s.stack with
      | [] | [_] => simp [stack] at short
      | right :: left :: rest => exact ⟨right, left, rest, rfl⟩
    simp only [stack, List.take_succ_cons, List.take_zero, List.forall_mem_cons] at floatless
    obtain ⟨right_ne, left_ne, -⟩ := floatless
    rw [perform_divMod stack, perform_operation rfl stack, stack]
    obtain ⟨rfl, rfl⟩ | ⟨some, -, -, -⟩ | ⟨mixed, -, -⟩ | ⟨-, met⟩ := Value.meeting left right
    · rename_i a b
      by_cases zero : b = 0
      · subst zero
        rfl
      · obtain ⟨q, r, divided, reduced, both, -⟩ := Value.exists_quotient a zero
        simp only [Value.operate, divided, both, List.take_succ_cons, List.take_zero,
          List.cons_append, List.nil_append]
        rw [perform_operation rfl rfl]
        simp only [Value.operate, reduced]
    · obtain here | here := some
      · exact absurd here (left_ne _)
      · exact absurd here (right_ne _)
    · obtain ⟨-, here⟩ | ⟨here, -⟩ := mixed
      · exact absurd here (right_ne _)
      · exact absurd here (left_ne _)
    · simp only [Value.operate, Value.div, Value.divMod, met]
      rfl

/-- Whatever they divide, the three divisions give a result or are refused alike. Of integers, if the
divisor is not zero, they give one quotient and one remainder, which make up the dividend and are
told by the sign and the size of the remainder; and the instruction for both leaves the quotient
beneath the remainder. On any stack, unless there is a float among the operands, this instruction
leaves what the other two leave, each on its own copy of the operands. -/
theorem quotients_agree :
    (∀ left right : Value, Value.Alike (Value.Indivisible left right) (Value.div left right)
      (Value.mod left right) (Value.divMod left right)) ∧
    (∀ a b : Int, b ≠ 0 → ∃ q r : Int,
      Value.div (.int a) (.int b) = .ok (.int q) ∧ Value.mod (.int a) (.int b) = .ok (.int r) ∧
        Value.divMod (.int a) (.int b) = .ok (.int q, .int r) ∧
        a = q * b + r ∧ (r = 0 ∨ r.sign = b.sign) ∧ r.natAbs < b.natAbs ∧
        ∀ (next : Option Text) (turned : Bool) (s : Store) (rest : List Value),
          s.stack = .int b :: .int a :: rest →
            Overrides.perform {} [.scalar '~'] next turned s =
              .ok {} { s with stack := .int r :: .int q :: rest }) ∧
    ∀ (next : Option Text) (turned : Bool) (s : Store),
      (∀ v ∈ s.stack.take 2, ∀ x, v ≠ .float x) →
        leftState (Overrides.perform {} [.scalar '~'] next turned s) =
          leftState (divideApart next turned s) := by
  refine ⟨Value.divisions_alike, fun a b nonzero => ?_, fun next turned s => left_divideApart _ _⟩
  obtain ⟨q, r, divided, reduced, both, parts⟩ := Value.exists_quotient a nonzero
  refine ⟨q, r, divided, reduced, both, parts.1, parts.2.1, parts.2.2, ?_⟩
  intro next turned s rest stack
  rw [perform_divMod stack, both]

/-- The quotient of -7 and 2 is rounded down to -4, and 1 remains. -/
theorem quotients_agree_rounded_down :
    let s : Store := { stack := [.int 2, .int (-7), .text []] }
    (2 : Int) ≠ 0 ∧ (∀ v ∈ s.stack.take 2, ∀ x, v ≠ .float x) ∧
      Overrides.perform {} [.scalar '~'] none false s =
        .ok {} { s with stack := [.int 1, .int (-4), .text []] } ∧
      leftState (divideApart none false s) = { s with stack := [.int 1, .int (-4), .text []] } := by
  intro s
  have floatless : ∀ v ∈ s.stack.take 2, ∀ x, v ≠ .float x := by
    intro v mem x
    simp only [s, List.take_succ_cons, List.take_zero, List.mem_cons, List.not_mem_nil,
      or_false] at mem
    obtain rfl | rfl := mem <;> simp
  obtain ⟨-, integers, apart⟩ := quotients_agree
  obtain ⟨q, r, -, -, -, parts, sign, small, leaves⟩ := integers (-7) 2 (by decide)
  have leaves := leaves none false s [.text []] rfl
  obtain ⟨rfl, rfl⟩ : q = -4 ∧ r = 1 := by
    have nonneg : 0 ≤ r := by
      obtain rfl | positive := sign
      · exact Int.le_refl 0
      · exact Int.le_of_lt (Int.sign_eq_one_iff_pos.mp positive)
    omega
  refine ⟨by decide, floatless, leaves, ?_⟩
  rw [← apart none false s floatless, leaves]
  rfl

end Overrides

end DeskCalculator
