import DeskCalculator.Proofs.Machine.Continuing
import DeskCalculator.Proofs.Numeral

/-!
Expressions of elementary arithmetic, written for the calculator: the operands of an operator stand
before it. Such a program leaves the value of its expression on the stack, or stops at the first
operator that divides by zero, with the left operands that still waited on the stack.
-/

namespace DeskCalculator

/-- The operators that keep integers exact. -/
inductive Elementary where
  | add
  | sub
  | mul
  | div
  | mod
  deriving DecidableEq, Repr

namespace Elementary

def operator : Elementary → Operator
  | add => .add
  | sub => .sub
  | mul => .mul
  | div => .div
  | mod => .mod

def symbol (op : Elementary) : CodePoint := op.operator.symbol

/-- The result of an operation. A quotient is rounded down, and there is none by zero. -/
def result? : Elementary → Int → Int → Option Int
  | add, a, b => some (a + b)
  | sub, a, b => some (a - b)
  | mul, a, b => some (a * b)
  | div, a, b => if b = 0 then none else some (a.fdiv b)
  | mod, a, b => if b = 0 then none else some (a.fmod b)

end Elementary

inductive Expression where
  | literal (n : Int)
  | operation (op : Elementary) (left right : Expression)
  deriving DecidableEq, Repr

namespace Expression

/-- An operator that has no result, and the left operands that wait for theirs, the latest first. -/
structure Interruption where
  operator : Elementary
  pending : List Int := []
  deriving DecidableEq, Repr

/-- The value of an expression. The left operand is evaluated before the right one, and both before
the operator, so an interruption is the first one. -/
def evaluate : Expression → Except Interruption Int
  | literal n => .ok n
  | operation op left right =>
    match left.evaluate with
    | .error i => .error i
    | .ok a =>
      match right.evaluate with
      | .error i => .error { i with pending := i.pending ++ [a] }
      | .ok b =>
        match op.result? a b with
        | some c => .ok c
        | none => .error { operator := op }

/-- The program of an expression for an input base: a space follows every literal. -/
def program (base : Nat) (h : 2 ≤ base) : Expression → Text
  | literal n => Numeral.written base n h ++ [.scalar ' ']
  | operation op left right => left.program base h ++ right.program base h ++ [op.symbol]

end Expression

namespace Elementary

theorem ofName_symbol (op : Elementary) :
    Instruction.ofName [op.symbol] = .operate op.operator := by
  cases op <;> rfl

/-- An operator takes two integers from the stack and leaves their result. -/
theorem perform_operator {op : Elementary} {a b c : Int} {rest : List Value} {s : Store}
    (stack : s.stack = .int b :: .int a :: rest) (found : op.result? a b = some c) :
    Instruction.performOperator op.operator s = .ok {} { s with stack := .int c :: rest } := by
  have operated : Value.operate op.operator (.int a) (.int b) = .ok (.int c) := by
    cases op with
    | add | sub | mul =>
      cases found
      rfl
    | div | mod =>
      obtain ⟨nonzero, same⟩ := Option.ite_none_left_eq_some.mp found
      cases same
      exact if_neg nonzero
  simp only [Instruction.performOperator, bind_apply, Store.pop, stack, Store.attempt, operated]
  rfl

/-- A division by zero takes both operands and leaves nothing. -/
theorem perform_operator_fails {op : Elementary} {a b : Int} {rest : List Value} {s : Store}
    (stack : s.stack = .int b :: .int a :: rest) (missing : op.result? a b = none) :
    ∃ cause, cause.kind = .divisionByZero ∧ Instruction.performOperator op.operator s =
      .error (.fault ⟨cause, some [op.symbol]⟩) { s with stack := rest } := by
  obtain ⟨cause, kind, operated⟩ : ∃ cause : Cause, cause.kind = .divisionByZero ∧
      Value.operate op.operator (.int a) (.int b) =
        .error (.fault ⟨cause, some [op.symbol]⟩) := by
    cases op with
    | add | sub | mul => cases missing
    | div =>
      have zero : b = 0 := by simpa [result?] using missing
      exact ⟨.divisionByZero, rfl, if_pos zero⟩
    | mod =>
      have zero : b = 0 := by simpa [result?] using missing
      exact ⟨.remainderByZero, rfl, if_pos zero⟩
  refine ⟨cause, kind, ?_⟩
  simp only [Instruction.performOperator, bind_apply, Store.pop, stack, Store.attempt, operated]

end Elementary

namespace Machine

variable {host : Host} {calling : Calling} {m : Machine} {f : Frame} {callers : List Frame}
  {ch : CodePoint}

/-- An instruction that only changes the store is executed in one step. -/
theorem step_proceeds (host : Host) (calling : Calling) {s : Store} (builtIn : m.overrides = {})
    (frames : m.frames = f :: callers) (pending : f.cursor.peek? = some ch)
    (unnamed : (Instruction.ofName [ch]).needsName = false)
    (performed : ∀ next turned, (Instruction.ofName [ch]).perform next turned m.store = .ok {} s) :
    ∃ journal, step host calling m = .ok none
      { m with store := s, journal, frames := f.begin (f.cursor.advance 1) :: callers } := by
  have responds (next : Option Text) (turned : Bool) :
      Overrides.perform {} [ch] next turned m.store = .ok {} s := by
    simp [Overrides.builtIn_perform, unnamed, performed]
  refine ⟨m.journal.record (callers.length + 1) [ch] f.cursor.index .proceed s.stack.length, ?_⟩
  rw [step_of_pending frames pending]
  simp only [execute, perform, respond, bind_apply, setFrames, update, onStore, builtIn, responds]
  rfl

/-- An instruction that fails leaves its frame behind it. -/
theorem step_breaks (host : Host) (calling : Calling) {s : Store} {failure : Failure}
    (builtIn : m.overrides = {}) (frames : m.frames = f :: callers)
    (pending : f.cursor.peek? = some ch)
    (unnamed : (Instruction.ofName [ch]).needsName = false)
    (performed : ∀ next turned,
      (Instruction.ofName [ch]).perform next turned m.store = .error failure s) :
    step host calling m = .error (failure.ascribe [ch])
      { m with store := s, frames := f.begin (f.cursor.advance 1) :: callers } := by
  have responds (next : Option Text) (turned : Bool) :
      Overrides.perform {} [ch] next turned m.store = .error (failure.ascribe [ch]) s := by
    simp [Overrides.builtIn_perform, unnamed, performed]
  rw [step_of_pending frames pending]
  simp only [execute, perform, respond, bind_apply, setFrames, update, onStore, builtIn, responds]

theorem ofName_written (base : Nat) (h : 2 ≤ base ∧ base ≤ 16) (n : Int) :
    ∃ c t, Numeral.written base n h.1 = c :: t ∧ Instruction.ofName [c] = .numeral := by
  have digit : ∀ d < 16, Instruction.ofName [Numeral.symbol d] = .numeral := by decide
  unfold Numeral.written
  split
  · exact ⟨_, _, rfl, rfl⟩
  · have some : Numeral.digits base n.natAbs h.1 ≠ [] := Numeral.digits_ne_nil h.1 n.natAbs
    obtain ⟨d, ds, digits⟩ := List.exists_cons_of_ne_nil some
    have lt := Numeral.digits_lt h.1 n.natAbs d (digits ▸ List.mem_cons_self)
    refine ⟨Numeral.symbol d, ds.map Numeral.symbol, ?_, digit d (by omega)⟩
    rw [Numeral.magnitude, digits, List.map_cons]

/-- A written integer is put on the stack in one step. -/
theorem step_written (host : Host) (calling : Calling) {base : Nat} (h : 2 ≤ base ∧ base ≤ 16)
    (builtIn : m.overrides = {}) (radix : m.store.inputBase = base)
    (frames : m.frames = f :: callers) {n : Int} {c : CodePoint} {more : Text}
    (other : Literal.isNumeralBody c = false)
    (rest : f.cursor.rest = Numeral.written base n h.1 ++ c :: more) :
    ∃ journal frame, step host calling m = .ok none
        { m with
          store := { m.store with stack := .int n :: m.store.stack }
          journal
          frames := frame :: callers } ∧
      frame.cursor.rest = c :: more := by
  obtain ⟨ch, t, begins, numeral⟩ := ofName_written base h n
  have pending : f.cursor.peek? = some ch := by
    rw [Cursor.peek?, rest, begins]
    rfl
  obtain ⟨journal, stepped⟩ := step_asking host calling frames pending
    (Overrides.find?_builtIn builtIn _) numeral rfl fun _ _ _ => rfl
  have value : (f.cursor.numeral base).1 = .int n := by
    change Literal.number base (Literal.numeralRun f.cursor.rest) = _
    rw [rest, Literal.numeralRun_written h n other, Literal.number_written h]
  refine ⟨journal, { f.begin (f.cursor.advance 1) with cursor := (f.cursor.numeral base).2 }, ?_, ?_⟩
  · have acted (m' : Machine) : act host [ch] ((f.cursor.advance 1).peek?.map ([·]))
        (f.begin (f.cursor.advance 1)) callers .numeral m' =
          .ok (.goOn (f.cursor.numeral m'.store.inputBase).2)
            { m' with store := { m'.store with
              stack := (f.cursor.numeral m'.store.inputBase).1 :: m'.store.stack } } := rfl
    rw [stepped, bind_apply, acted, radix, value]
    rfl
  · rw [Cursor.rest_numeral, rest, Literal.numeralRun_written h n other, List.drop_left]

/-- What becomes of a machine that executes the program of an expression in front of `more`: it comes
to `more` with the value on its stack, or an operator fails and leaves the operands that wait. -/
inductive Computes (host : Host) (callers : List Frame) (more : Text) (m : Machine) :
    Except Expression.Interruption Int → Prop where
  | value {v : Int} {i : Nat} {journal : Journal} {frame : Frame}
      (walked : steps host .flat i m = .ok none
        { m with
          store := { m.store with stack := .int v :: m.store.stack }
          journal
          frames := frame :: callers })
      (rest : frame.cursor.rest = more) : Computes host callers more m (.ok v)
  | interrupted {i : Expression.Interruption} {k : Nat} {cause : Cause} {journal : Journal}
      {frames : List Frame} (kind : cause.kind = .divisionByZero)
      (failed : steps host .flat k m = .error (.fault ⟨cause, some [i.operator.symbol]⟩)
        { m with
          store := { m.store with stack := i.pending.map .int ++ m.store.stack }
          journal
          frames }) : Computes host callers more m (.error i)

theorem computes_operator (host : Host) {op : Elementary} {a b : Int} {values : List Value}
    {more : Text} (builtIn : m.overrides = {}) (frames : m.frames = f :: callers)
    (rest : f.cursor.rest = op.symbol :: more)
    (stack : m.store.stack = .int b :: .int a :: values) :
    (∀ c, op.result? a b = some c → ∃ journal frame, step host .flat m = .ok none
        { m with
          store := { m.store with stack := .int c :: values }
          journal
          frames := frame :: callers } ∧ frame.cursor.rest = more) ∧
      (op.result? a b = none → ∃ cause : Cause, cause.kind = .divisionByZero ∧
        ∃ frames, step host .flat m = .error (.fault ⟨cause, some [op.symbol]⟩)
          { m with store := { m.store with stack := values }, frames }) := by
  have pending : f.cursor.peek? = some op.symbol := by
    rw [Cursor.peek?, rest]
    rfl
  have unnamed : (Instruction.ofName [op.symbol]).needsName = false := by
    rw [op.ofName_symbol]
    rfl
  have performs (next : Option Text) (turned : Bool) :
      (Instruction.ofName [op.symbol]).perform next turned m.store =
        Instruction.performOperator op.operator m.store := by
    rw [op.ofName_symbol]
    rfl
  constructor
  · intro c found
    have performed := Elementary.perform_operator stack found
    obtain ⟨journal, stepped⟩ := step_proceeds host .flat builtIn frames
      pending unnamed fun next turned => (performs next turned).trans performed
    refine ⟨journal, _, stepped, ?_⟩
    change (f.cursor.advance 1).rest = more
    rw [Cursor.rest_advance, rest, List.drop_one, List.tail_cons]
  · intro missing
    obtain ⟨cause, kind, performed⟩ := Elementary.perform_operator_fails stack missing
    have stepped := step_breaks host .flat builtIn frames pending unnamed
      fun next turned => (performs next turned).trans performed
    exact ⟨cause, kind, _, stepped⟩

section computing
variable {base : Nat} {more : Text} {start : Machine}

theorem computes_literal (h : 2 ≤ base ∧ base ≤ 16) (n : Int) (builtIn : m.overrides = {})
    (radix : m.store.inputBase = base) (frames : m.frames = f :: callers)
    (rest : f.cursor.rest = (Expression.literal n).program base h.1 ++ more) :
    Computes host callers more m (Expression.literal n).evaluate := by
  have spaced : f.cursor.rest = Numeral.written base n h.1 ++ .scalar ' ' :: more := by
    rw [rest, Expression.program, List.append_assoc]
    rfl
  obtain ⟨journal, frame, stepped, behind⟩ :=
    step_written host .flat h builtIn radix frames rfl spaced
  have space : frame.cursor.peek? = some (.scalar ' ') := by
    rw [Cursor.peek?, behind]
    rfl
  obtain ⟨journal', stepped'⟩ := step_proceeds host .flat
    (m := { m with
      store := { m.store with stack := .int n :: m.store.stack }
      journal
      frames := frame :: callers })
    builtIn rfl space rfl fun _ _ => rfl
  have walked : steps host .flat 2 m = _ :=
    (steps_succ stepped).trans ((steps_one _).trans stepped')
  have rest' : (frame.begin (frame.cursor.advance 1)).cursor.rest = more := by
    change (frame.cursor.advance 1).rest = more
    rw [Cursor.rest_advance, behind, List.drop_one, List.tail_cons]
  exact .value walked rest'

/-- The program of an expression computes it, whatever follows it and whatever is on the stack. -/
theorem computes (h : 2 ≤ base ∧ base ≤ 16) (e : Expression) (builtIn : m.overrides = {})
    (radix : m.store.inputBase = base) (frames : m.frames = f :: callers)
    (rest : f.cursor.rest = e.program base h.1 ++ more) :
    Computes host callers more m e.evaluate := by
  induction e generalizing m f more with
  | literal n => exact computes_literal h n builtIn radix frames rest
  | operation op left right ihl ihr =>
    have parts : f.cursor.rest =
        left.program base h.1 ++ (right.program base h.1 ++ op.symbol :: more) := by
      simp [rest, Expression.program]
    have leftward := ihl builtIn radix frames parts
    generalize found : left.evaluate = first at leftward
    cases leftward with
    | interrupted kind failed =>
      simp only [Expression.evaluate, found]
      exact .interrupted kind failed
    | @value a i journal frame walked rest' =>
      have rightward := ihr (m := { m with
        store := { m.store with stack := .int a :: m.store.stack }
        journal
        frames := frame :: callers }) builtIn radix rfl rest'
      generalize found' : right.evaluate = second at rightward
      cases rightward with
      | @interrupted i' k cause journal' frames' kind failed =>
        simp only [Expression.evaluate, found, found']
        have broken : steps host .flat (i + k) m =
            .error (.fault ⟨cause, some [i'.operator.symbol]⟩)
              { m with
                store := { m.store with stack := (i'.pending ++ [a]).map .int ++ m.store.stack }
                journal := journal'
                frames := frames' } := by
          rw [steps_add walked, failed]
          simp
        exact .interrupted kind broken
      | @value b j journal' frame' walked' rest'' =>
        obtain ⟨succeeds, fails⟩ := computes_operator host (m := { m with
          store := { m.store with stack := .int b :: .int a :: m.store.stack }
          journal := journal'
          frames := frame' :: callers }) builtIn rfl rest'' rfl
        have both : steps host .flat (i + j) m = _ := (steps_add walked).trans walked'
        cases computed : op.result? a b with
        | some c =>
          obtain ⟨journal'', frame'', stepped, left⟩ := succeeds c computed
          simp only [Expression.evaluate, found, found', computed]
          have arrived : steps host .flat (i + j + 1) m = _ :=
            (steps_add both).trans ((steps_one _).trans stepped)
          exact .value arrived left
        | none =>
          obtain ⟨cause, kind, frames'', stepped⟩ := fails computed
          simp only [Expression.evaluate, found, found', computed]
          have broken : steps host .flat (i + j + 1) m = _ :=
            (steps_add both).trans ((steps_one _).trans stepped)
          exact .interrupted kind broken

/-- A run is over with its result when no handler refuses to be told of the end. -/
theorem conclude_silent {event : Event} (silent : Silent (emit host event))
    (result : Except RunFailure Signal) (m : Machine) :
    ∃ m', conclude host event result m = (result, m') ∧ m'.store = m.store ∧
      m'.outputs = m.outputs := by
  obtain ⟨history, told, unseen⟩ := silent m
  exact ⟨{ m with history }, by simp only [conclude, told], rfl, unseen⟩

/-- A run of the program of an expression leaves its value on the stack and everything else as it was,
and puts nothing out. If an operator divides by zero, the run fails at the first one that does, and
the left operands that waited are on the stack. -/
theorem program_computes (heard : Host.Obliging { hooks := host.hooks })
    (builtIn : start.overrides = {}) (h : 2 ≤ base ∧ base ≤ 16)
    (radix : start.store.inputBase = base) (e : Expression) (name : Text) :
    ∃ limit result m, run host .flat limit name (e.program base h.1) start = some (result, m) ∧
      m.outputs = start.outputs ∧
      match e.evaluate with
      | .ok v => result = .ok .okay ∧
          m.store = { start.store with stack := .int v :: start.store.stack, unwind := 0 }
      | .error i => ∃ t, result = .error (.fault t) ∧ t.fault.cause.kind = .divisionByZero ∧
          t.fault.instruction = some [i.operator.symbol] ∧
          m.store = { start.store with
            stack := i.pending.map .int ++ start.store.stack
            unwind := 0 } := by
  have silent (event : Event) : Silent (emit host event) := silent_emit heard event
  obtain ⟨history, told, unseen⟩ := silent (.programStart (e.program base h.1)) start.cleared
  let begun : Machine :=
    { start.cleared with history, frames := [Frame.ofText name (e.program base h.1)] }
  have whole : (Frame.ofText name (e.program base h.1)).cursor.rest = e.program base h.1 ++ [] :=
    (List.append_nil _).symm
  have computed : Computes host [] [] begun e.evaluate := computes h e builtIn radix rfl whole
  generalize e.evaluate = outcome at computed
  cases computed with
  | @value v i journal frame walked rest =>
    let left : Machine :=
      { begun with
        store := { begun.store with stack := .int v :: begun.store.stack }
        journal
        frames := [frame] }
    have ended : step host .flat left = _ := step_of_end rfl (congrArg List.head? rest)
    have taken : steps host .flat (i + 1) begun = _ :=
      (steps_add walked).trans ((steps_one left).trans ended)
    obtain ⟨m, concluded, store, outputs⟩ :=
      conclude_silent (silent (.programEnd .okay)) (.ok .okay) { left with frames := [] }
    refine ⟨i + 1, .ok .okay, m, ?_, outputs.trans unseen, rfl, store⟩
    rw [run_of_told told, taken]
    exact congrArg some concluded
  | @interrupted i k cause journal frames kind failed =>
    let left : Machine :=
      { begun with
        store := { begun.store with stack := i.pending.map .int ++ begun.store.stack }
        journal
        frames }
    let t := left.traceback (.fault ⟨cause, some [i.operator.symbol]⟩)
    obtain ⟨m, concluded, store, outputs⟩ :=
      conclude_silent (silent (.onError t.fault)) (.error (.fault t)) { left with frames := [] }
    refine ⟨k, .error (.fault t), m, ?_, outputs.trans unseen, t, rfl, kind, rfl, store⟩
    rw [run_of_told told, failed]
    exact congrArg some concluded

/-- `_FF 10 /` and `3 7 _FF 5 5 %/*+` in base sixteen. -/
theorem program_computes_hexadecimal :
    let start : Machine := { store := { inputBase := 16 } }
    (∃ limit m, run {} .flat limit [] (Text.ofString "_FF 10 /") start = some (.ok .okay, m) ∧
      m.store.stack = [.int (-16)]) ∧
    ∃ limit t m, run {} .flat limit [] (Text.ofString "3 7 _FF 5 5 %/*+") start =
        some (.error (.fault t), m) ∧ t.fault.instruction = some (Text.ofString "/") ∧
      m.store.stack = [.int 7, .int 3] := by
  intro start
  let quotient : Expression := .operation .div (.literal (-255)) (.literal 16)
  let interrupted : Expression :=
    .operation .add (.literal 3) (.operation .mul (.literal 7)
      (.operation .div (.literal (-255)) (.operation .mod (.literal 5) (.literal 5))))
  have radix : start.store.inputBase = (16 : Nat) := rfl
  have heard : Host.Obliging { hooks := Host.hooks {} } := Host.obliging_default
  have computes (e : Expression) := program_computes heard rfl (by decide) radix e []
  have written : quotient.program 16 (by decide) = Text.ofString "_FF 10 /" ∧
      interrupted.program 16 (by decide) = Text.ofString "3 7 _FF 5 5 %/*+" := by decide +kernel
  rw [← written.1, ← written.2]
  constructor
  · obtain ⟨limit, result, m, ran, -, rfl, left⟩ := computes quotient
    exact ⟨limit, m, ran, by rw [left]; rfl⟩
  · obtain ⟨limit, result, m, ran, -, t, rfl, -, instruction, left⟩ := computes interrupted
    exact ⟨limit, t, m, ran, instruction, by rw [left]; rfl⟩

end computing

end Machine

end DeskCalculator
