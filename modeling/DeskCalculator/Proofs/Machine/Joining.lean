import DeskCalculator.Proofs.Cursor
import DeskCalculator.Proofs.Machine.Execute
import DeskCalculator.Proofs.Machine.Matching

/-!
One instruction executed in two texts, of which the second goes on with more, on a new line. What the
instruction asks for differs only in where the cursors have come to. Behind a text that just goes on
an instruction may find a name that it misses at the end of the first one; then the first one fails.
-/

namespace DeskCalculator

open Literal (OnNewLine)

/-- What an instruction asks for in a text, and in one that goes on with `more`. The sense of the next
comparison is turned only where there is something left to execute. -/
inductive Move.Joined (more : Text) : Move → Move → Prop where
  | goOn {cursor cursor' : Cursor} {turned : Bool} (joined : cursor.Joined more cursor')
      (turns : turned → cursor.rest ≠ []) : Joined more (.goOn cursor turned) (.goOn cursor' turned)
  | call (text : Text) {cursor cursor' : Cursor} (behind : cursor.Behind more cursor') :
      Joined more (.call text cursor) (.call text cursor')
  | quit : Joined more .quit .quit

namespace Instruction

/-- An instruction that needs no name does not see whether its line ends behind it. -/
theorem perform_newline {i : Instruction} (unnamed : i.needsName = false) (turned : Bool) :
    i.perform (some [.scalar '\n']) turned = i.perform none turned := by
  cases i with
  | compare | load | store | restore | save | fetchElement | storeElement => cases unnamed
  | _ => rfl

end Instruction

namespace Overrides

open Instruction

variable {name : Text} {next : Option Text} {action : Action}

/-- An action that has to do with the next character is only asked for where there is one. -/
theorem Asked.next_ne_none (h : Asked name next action)
    (looks : action = .callRegister ∨ action = .negate ∨ action = .skipName) : next ≠ none := by
  have listed := h.listed
  have named := h.named
  cases hi : ofName name with
  | compare | load | store | restore | save | fetchElement | storeElement =>
    exact named (by rw [hi]; rfl)
  | bang =>
    rw [hi] at listed
    rintro rfl
    obtain rfl | rfl | rfl := looks <;> cases listed <;> contradiction
  | _ =>
    rw [hi] at listed
    obtain rfl | rfl | rfl := looks <;> simp [actions] at listed

theorem Asked.string (h : Asked name next .string) : ofName name = .string := by
  have listed := h.listed
  cases hi : ofName name with
  | string => rfl
  | bang =>
    rw [hi] at listed
    change Action.string ∈ if next.any isComparison then _ else _ at listed
    split at listed <;> simp at listed
  | _ =>
    rw [hi] at listed
    simp [actions] at listed

/-- An instruction at the end of a text does what it does at the end of a line, unless it fails for
want of a name. -/
theorem follows_newline (name : Text) (turned : Bool) :
    Follows (fun _ => True) (· = ·) (· = ·) (Overrides.perform {} name none turned)
      (Overrides.perform {} name (some [.scalar '\n']) turned) := by
  rintro s _ rfl
  cases needs : (ofName name).needsName with
  | true =>
    rw [builtIn_perform, if_pos ⟨needs, rfl⟩]
    exact .lost trivial
  | false =>
    have same : Overrides.perform {} name (some [.scalar '\n']) turned s =
        Overrides.perform {} name none turned s := by
      simp [builtIn_perform, needs, perform_newline needs]
    rw [same]
    exact Store.stable_eq _ _ s s rfl

/-- What stands behind an instruction is told from the text that it is in. -/
theorem follows_append {more : Text} (onNewLine : OnNewLine more) (t name : Text) (turned : Bool) :
    Follows (fun _ => True) (· = ·) (· = ·)
      (Overrides.perform {} name (t.head?.map ([·])) turned)
      (Overrides.perform {} name ((t ++ more).head?.map ([·])) turned) := by
  cases t with
  | cons c t => exact Store.stable_eq _ _
  | nil =>
    cases onNewLine with
    | nothing => exact Store.stable_eq _ _
    | line more => exact follows_newline name turned

end Overrides

namespace Machine

variable {lost : Failure → Prop} {same : Store → Store → Prop} {host : Host} {more : Text}
  {name : Text} {next next' : Option Text} {f g : Frame} {fs gs : List Frame}
  (sameness : Store.Sameness lost same) (onNewLine : OnNewLine more)
include sameness onNewLine

theorem follows_invoke {cursor cursor' : Cursor} (joined : cursor.Joined more cursor') (v : Value) :
    Follows lost (Move.Joined more) (Matching same) (invoke cursor v) (invoke cursor' v) := by
  have behind := joined.skipBlank onNewLine
  cases v with
  | text t => exact .pure (.call t behind)
  | int | float =>
    refine .bind (follows_onStore (sameness.push _)) fun _ _ _ => .pure ?_
    exact .goOn behind.joined (by simp)

theorem follows_act (obliging : host.Obliging) {action : Action}
    (rests : g.cursor.rest = f.cursor.rest ++ more)
    (begins : ({ g.cursor with index := g.position } : Cursor).rest =
      ({ f.cursor with index := f.position } : Cursor).rest ++ more)
    (names : action = .callRegister → next' = next)
    (turns : action = .negate → f.cursor.rest ≠ [])
    (closed : action = .string → more = [] ∨ (Literal.closing? 0 f.cursor.rest).isSome) :
    Follows lost (Move.Joined more) (Matching same) (act host name next f fs action)
      (act host name next' g gs action) := by
  have here : f.cursor.Joined more g.cursor := by
    rw [Cursor.Joined, rests]
    exact .inside _
  have past : (f.cursor.advance 1).Joined more (g.cursor.advance 1) :=
    Cursor.joined_advance onNewLine rests
  cases action with
  | proceed => exact .pure (.goOn here (by simp))
  | skipName => exact .pure (.goOn past (by simp))
  | quit => exact .pure .quit
  | negate => exact .pure (.goOn here fun _ => turns rfl)
  | comment =>
    obtain ⟨-, joined⟩ := Cursor.joined_line onNewLine rests
    exact .pure (.goOn joined (by simp))
  | callRegister =>
    have same := names rfl
    subst same
    refine .bind (follows_onStore (sameness.existingRegister _)) ?_
    rintro register _ rfl
    exact follows_invoke sameness onNewLine past register.value
  | callTop =>
    refine .bind (follows_onStore sameness.pop) ?_
    rintro v _ rfl
    exact follows_invoke sameness onNewLine here v
  | numeral =>
    refine .bind (follows_onStore sameness.inputBase) ?_
    rintro base _ rfl
    obtain ⟨value, joined⟩ := Cursor.joined_numeral onNewLine begins base
    dsimp only
    rw [value]
    exact .bind (follows_onStore (sameness.push _)) fun _ _ _ => .pure (.goOn joined (by simp))
  | string =>
    obtain ⟨text, joined⟩ := Cursor.joined_string onNewLine rests (closed rfl)
    dsimp only [act]
    rw [text]
    exact .bind (follows_onStore (sameness.push _)) fun _ _ _ => .pure (.goOn joined (by simp))
  | command =>
    obtain ⟨line, joined⟩ := Cursor.joined_line onNewLine rests
    dsimp only [act]
    rw [line]
    refine .bind (follows_setFrames _ _) fun _ _ _ => ?_
    exact .bind (stable_command obliging _) fun _ _ _ => .pure (.goOn joined (by simp))
  | unknown =>
    unfold act
    exact follows_onStore fun _ _ stores => .error stores

/-- An instruction that does the same to the stores asks for the same in both texts. -/
theorem follows_execute (obliging : host.Obliging) (fs gs : List Frame) {ch : CodePoint} {t : Text}
    (pending : f.cursor.rest = ch :: t) (rests : g.cursor.rest = f.cursor.rest ++ more)
    (turned : g.turned = f.turned)
    (closed : ch = .scalar '[' → more = [] ∨ (Literal.closing? 0 t).isSome)
    (performed : Follows lost (· = ·) same
      (Overrides.perform {} [ch] (t.head?.map ([·])) f.turned)
      (Overrides.perform {} [ch] ((t ++ more).head?.map ([·])) f.turned)) :
    Follows lost (Move.Joined more) (Matching same)
      (execute host [ch] (f.cursor.advance 1) f fs)
      (execute host [ch] (g.cursor.advance 1) g gs) := by
  have behind : (f.cursor.advance 1).rest = t := by
    rw [Cursor.rest_advance, pending, List.drop_one, List.tail_cons]
  have behind' : (g.cursor.advance 1).rest = t ++ more := by
    rw [Cursor.rest_advance, rests, pending, List.cons_append, List.drop_one, List.tail_cons]
  have next : (f.cursor.advance 1).peek? = t.head? := congrArg List.head? behind
  have next' : (g.cursor.advance 1).peek? = (t ++ more).head? := congrArg List.head? behind'
  simp only [execute, next, next', turned]
  refine .bind (follows_setFrames _ _) fun _ _ _ => ?_
  refine .bind (follows_perform obliging sameness performed) ?_
  rintro action _ ⟨rfl, asked⟩
  refine .bind (follows_record _ _ _ _) fun _ _ _ => ?_
  have found (looks : action = .callRegister ∨ action = .negate ∨ action = .skipName) : t ≠ [] := by
    rintro rfl
    exact asked.next_ne_none looks rfl
  refine follows_act sameness onNewLine obliging ?_ rests ?_ ?_ ?_
  · exact behind'.trans (congrArg (· ++ more) behind.symm)
  · intro calls
    obtain ⟨c, t, rfl⟩ := List.exists_cons_of_ne_nil (found (.inl calls))
    rfl
  · intro negates
    exact behind.symm ▸ found (.inr (.inl negates))
  · rintro rfl
    have bracket := Instruction.eq_of_sign? asked.string rfl
    exact behind.symm ▸ closed bracket

end Machine

end DeskCalculator
