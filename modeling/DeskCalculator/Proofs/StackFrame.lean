import DeskCalculator.Proofs.Machine.Abreast

/-!
Values beneath the stack. A program that never asks for the whole stack does not see what is beneath
the values it takes, unless it takes more than there are: with more values beneath, it does the same
on top of them.
-/

namespace DeskCalculator

namespace Store

/-- A store with `ys` beneath its stack. -/
def under (ys : List Value) (s : Store) : Store := { s with stack := s.stack ++ ys }

end Store

/-- A failure for want of a value. -/
def Failure.StackEmpty (failure : Failure) : Prop := failure.told.cause.kind = .stackEmpty

variable {ys : List Value}

/-- What is beneath the stack makes no difference, unless a value is wanting. -/
theorem Store.sameness_under (ys : List Value) :
    Sameness Failure.StackEmpty fun s t => t = s.under ys where
  toCongruence := by
    have reshaped : Congruence Failure.StackEmpty fun s t => t = s.reshape (· ++ ys) id :=
      congruence_reshape (fun _ _ => rfl) (.inr rfl)
    exact reshaped
  base_eq same := by rw [same, under]
  unwind_eq same := by rw [same, under]
  withUnwind u same := by
    rw [same]
    rfl
  ascribe := by
    intro failure name empty
    cases failure <;> exact empty

namespace Instruction

open Store

theorem stable_under_quit (next : Option Text) (turned : Bool) :
    Stable Failure.StackEmpty (fun s t => t = s.under ys) (quit.perform next turned) := by
  rintro s _ rfl
  exact .ok rfl rfl

theorem stable_under_performQuitLevels :
    Stable Failure.StackEmpty (fun s t => t = s.under ys) performQuitLevels := by
  refine (stable_popInt (sameness_under ys).toCongruence _).bind fun n => .ite ?_ (stable_fail _)
  rintro s _ rfl
  exact .ok rfl rfl

/-- Only three instructions ask for the whole stack. -/
theorem stable_under {ch : CodePoint} (next : Option Text) (turned : Bool)
    (unasked : ∀ sign ∈ ['c', 'f', 'z'], ch ≠ .scalar sign) :
    Stable Failure.StackEmpty (fun s t => t = s.under ys)
      ((ofName [ch]).perform next turned) := by
  refine stable_perform (sameness_under ys).toCongruence next turned fun global => ?_
  cases hi : ofName [ch] with
  | clear => exact absurd (eq_of_sign? hi rfl) (unasked 'c' (by decide))
  | depth => exact absurd (eq_of_sign? hi rfl) (unasked 'z' (by decide))
  | printAll => exact absurd (eq_of_sign? hi rfl) (unasked 'f' (by decide))
  | quit => exact stable_under_quit next turned
  | quitLevels => exact stable_under_performQuitLevels
  | _ =>
    rw [hi] at global
    cases global

end Instruction

namespace Machine

variable {host : Host} {name source : Text} {start m : Machine} {limit : Nat}
  {result : Except RunFailure Signal}

def under (ys : List Value) (m : Machine) : Machine := { m with store := m.store.under ys }

/-- A program that never asks for the whole stack runs from a stack with `ys` beneath it as it runs
from the stack alone, and leaves `ys` where they are: it takes as many steps, ends with the same
signal or fails for the same cause, puts out the same, and leaves the same store but for `ys` beneath
its stack. Only if it has failed for want of a value it may go on instead. -/
theorem stack_framed (ys : List Value) (obliging : host.Obliging) (builtIn : start.overrides = {})
    (unasked : ∀ m calls, Underway host .flat name source start m calls →
      ∀ sign ∈ ['c', 'f', 'z'], m.pending? ≠ some (.scalar sign))
    (ran : run host .flat limit name source start = some (result, m))
    (enough : ∀ t, result = .error (.fault t) → t.fault.cause.kind ≠ .stackEmpty) :
    ∃ result' m', run host .flat limit name source (start.under ys) = some (result', m') ∧
      result'.mapError RunFailure.unascribed = result.mapError RunFailure.unascribed ∧
      m'.store = m.store.under ys ∧ m'.outputs = m.outputs := by
  obtain ⟨history, told, unseen⟩ := silent_emit obliging (.programStart source) start.cleared
  obtain ⟨history', told', unseen'⟩ :=
    silent_emit obliging (.programStart source) (start.under ys).cleared
  have begun : Underway host .flat name source start _ [] := .begin told
  rw [run_of_told told] at ran
  rw [run_of_told told']
  have matching : Matching (fun s t => t = s.under ys)
      { start.cleared with history, frames := [Frame.ofText name source] }
      { (start.under ys).cleared with
        history := history', frames := [Frame.ofText name source] } :=
    { store := rfl, builtIn, builtIn' := builtIn, outputs := unseen.trans unseen'.symm }
  have abreast := steps_abreast (Store.sameness_under ys) obliging matching
    (.cons ⟨rfl, fun _ => rfl, fun _ => rfl⟩ .nil) ?_ limit
  · have concurs := verdict_concur obliging abreast
    rw [ran] at concurs
    generalize verdict host _ = other at concurs ⊢
    cases concurs with
    | @ended _ result' _ m' results matching =>
      exact ⟨result', m', rfl, results.symm, matching.store, matching.outputs.symm⟩
    | @lost failure t _ _ dropped told =>
      have empty : t.fault.cause.kind = .stackEmpty := (congrArg Cause.kind told).trans dropped
      exact absurd empty (enough t rfl)
  · intro i m' reached ch pending next turned
    obtain ⟨calls, underway⟩ := begun.steps reached
    refine Overrides.stable_builtIn (Store.sameness_under ys)
      (Instruction.stable_under next turned fun sign mem here => ?_)
    subst here
    exact unasked m' calls underway sign mem pending

/-- `[+p]x` from a stack of two numbers, and with two more beneath them. -/
theorem stack_framed_sum :
    let source := Text.ofString "[+p]x"
    let start : Machine := { store := { stack := [.int 2, .int 1] } }
    let ys : List Value := [.text [], .int 7]
    ∃ result m result' m', run {} .flat 9 [] source start = some (result, m) ∧
      result.toOption = some .okay ∧
      run {} .flat 9 [] source (start.under ys) = some (result', m') ∧
      result'.toOption = some .okay ∧ m'.store.stack = .int 3 :: ys ∧
      m'.outputs = [.wrote (Text.ofString "3\n")] := by
  intro source start ys
  have reached : ∀ i < 5, (leftState (stepsOf {} .flat [] source start i)).pending?.all fun ch =>
      ['c', 'f', 'z'].all fun sign => ch ≠ .scalar sign := by
    decide +kernel
  have unasked : ∀ m calls, Underway {} .flat [] source start m calls →
      ∀ sign ∈ ['c', 'f', 'z'], m.pending? ≠ some (.scalar sign) := by
    intro m calls h sign mem pending
    obtain ⟨i, lt, rfl⟩ := h.before (i := 5) (by decide +kernel)
    have other := reached i lt
    rw [pending, Option.all_some, List.all_eq_true] at other
    exact absurd rfl (of_decide_eq_true (other sign mem))
  have ends : (run {} .flat 9 [] source start).map
      (fun r => (r.1.toOption, r.2.store.stack, r.2.outputs)) =
        some (some .okay, [.int 3], [.wrote (Text.ofString "3\n")]) := by
    decide +kernel
  obtain ⟨⟨result, m⟩, ran, ended⟩ := Option.map_eq_some_iff.mp ends
  obtain ⟨signal, rest⟩ := Prod.mk.inj ended
  obtain ⟨stack, outputs⟩ := Prod.mk.inj rest
  have succeeds : result = .ok .okay := by
    cases result with
    | ok => exact congrArg Except.ok (Option.some.inj signal)
    | error => cases signal
  subst succeeds
  obtain ⟨result', m', ran', results, store, outputs'⟩ :=
    stack_framed ys Host.obliging_default rfl unasked ran (by simp)
  refine ⟨_, m, result', m', ran, rfl, ran', ?_, ?_, outputs'.trans outputs⟩
  · cases result' with
    | ok => exact congrArg Except.toOption results
    | error => cases results
  · rw [store, Store.under, stack]
    rfl

end Machine

end DeskCalculator
