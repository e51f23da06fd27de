import DeskCalculator.Proofs.Machine.Views

/-!
What executing one instruction depends on and what it leaves alone. Up to the move it asks for, an
instruction sees nothing of its callers, and only a quit has to do with the levels to unwind. A move
stays in the text, and a call is made only after the blanks behind it have been skipped.
-/

namespace DeskCalculator

/-- A call goes on behind the blanks that follow it. -/
def Move.PastBlanks : Move → Prop
  | call _ cursor => ∃ before : Cursor, cursor = before.skipBlank
  | _ => True

/-- An instruction moves on in its text. -/
def Move.StaysIn (text : Text) : Move → Prop
  | goOn cursor _ | call _ cursor => cursor.text = text
  | quit => True

theorem Cursor.text_line (c : Cursor) : c.line.2.text = c.text := by
  simp only [line]
  split <;> rfl

theorem Cursor.text_string (c : Cursor) : c.string.2.text = c.text := by
  simp only [string]
  split <;> rfl

namespace Machine

variable {host : Host} {name : Text} {next : Option Text} {u : Int}

section keeping
variable {τ : Type} {f : Machine → τ} (hs : ∀ m store, f { m with store } = f m)
include hs

theorem keeps_invoke (cursor : Cursor) (v : Value) : Keeps f (invoke cursor v) := by
  cases v with
  | text t => exact .pure _
  | int | float => exact .bind (keeps_onStore hs _) fun _ => .pure _

variable (hh : ∀ m history, f { m with history } = f m)
  (hf : ∀ m frames, f { m with frames } = f m)
include hh hf

theorem keeps_act (frame : Frame) (callers : List Frame) (action : Action) :
    Keeps f (act host name next frame callers action) := by
  cases action with
  | proceed | skipName | quit | comment | negate => exact .pure _
  | callRegister => exact .bind (keeps_onStore hs _) fun _ => keeps_invoke hs _ _
  | callTop => exact .bind (keeps_onStore hs _) fun _ => keeps_invoke hs _ _
  | numeral =>
    exact .bind (keeps_onStore hs _) fun _ => .bind (keeps_onStore hs _) fun _ => .pure _
  | string => exact .bind (keeps_onStore hs _) fun _ => .pure _
  | command =>
    exact .bind (fun m => hf m _) fun _ => .bind (keeps_command hh host _) fun _ => .pure _
  | unknown =>
    unfold act
    exact keeps_onStore hs _

theorem keeps_execute (hj : ∀ m journal, f { m with journal } = f m) (cursor : Cursor)
    (frame : Frame) (callers : List Frame) : Keeps f (execute host name cursor frame callers) :=
  .bind (fun m => hf m _) fun _ => .bind (keeps_perform hs hh host name _ _) fun _ =>
    .bind (fun m => hj m _) fun _ => keeps_act hs hh hf _ _ _

end keeping

/-- Executing an instruction keeps the frames, of which only the innermost has moved on in its
text. -/
theorem frames_act (frame : Frame) (callers : List Frame) (action : Action) {m : Machine}
    (hm : m.frames = frame :: callers) :
    ∃ cursor, cursor.text = frame.cursor.text ∧
      (leftState (act host name next frame callers action m)).frames =
        { frame with cursor } :: callers := by
  have kept {α : Type} {x : Activity α} (hx : Keeps Machine.frames x) :
      ∃ cursor, cursor.text = frame.cursor.text ∧
        (leftState (x m)).frames = { frame with cursor } :: callers :=
    ⟨frame.cursor, rfl, (hx m).trans hm⟩
  cases action with
  | proceed | skipName | quit | comment | negate => exact kept (.pure _)
  | callRegister | callTop =>
    exact kept (.bind (keeps_onStore (fun _ _ => rfl) _) fun _ => keeps_invoke (fun _ _ => rfl) _ _)
  | numeral =>
    exact kept (.bind (keeps_onStore (fun _ _ => rfl) _) fun _ =>
      .bind (keeps_onStore (fun _ _ => rfl) _) fun _ => .pure _)
  | string => exact kept (.bind (keeps_onStore (fun _ _ => rfl) _) fun _ => .pure _)
  | command =>
    refine ⟨frame.cursor.line.2, frame.cursor.text_line, ?_⟩
    exact Keeps.bind (keeps_command (fun _ _ => rfl) host _) (fun _ => .pure _)
      { m with frames := { frame with cursor := frame.cursor.line.2 } :: callers }
  | unknown =>
    refine kept ?_
    unfold act
    exact keeps_onStore (fun _ _ => rfl) _

theorem frames_execute (host : Host) (name : Text) (cursor : Cursor) (frame : Frame)
    (callers : List Frame) (m : Machine) :
    ∃ cursor', cursor'.text = cursor.text ∧
      (leftState (execute host name cursor frame callers m)).frames =
        { frame.begin cursor with cursor := cursor' } :: callers := by
  let begun := { m with frames := frame.begin cursor :: callers }
  let next := cursor.peek?.map ([·])
  have performed := keeps_perform (f := frames) (fun _ _ => rfl) (fun _ _ => rfl) host name next
    frame.turned begun
  change ∃ cursor', _ ∧ (leftState ((perform host name next frame.turned >>= _) begun)).frames = _
  rw [bind_apply]
  cases hp : perform host name next frame.turned begun with
  | error failure m' =>
    rw [hp] at performed
    exact ⟨cursor, rfl, performed⟩
  | ok action m' =>
    rw [hp] at performed
    exact frames_act (frame.begin cursor) callers action performed

theorem pastBlanks_invoke (cursor : Cursor) (v : Value) :
    Answers Move.PastBlanks (invoke cursor v) := by
  cases v with
  | text t => exact .pure ⟨cursor, rfl⟩
  | int | float => exact .bind fun _ => .pure trivial

theorem pastBlanks_execute (cursor : Cursor) (frame : Frame) (callers : List Frame) :
    Answers Move.PastBlanks (execute host name cursor frame callers) := by
  refine .bind fun _ => .bind fun action => .bind fun _ => ?_
  cases action with
  | proceed | skipName | quit | comment | negate => exact .pure trivial
  | callRegister => exact .bind fun _ => pastBlanks_invoke _ _
  | callTop => exact .bind fun _ => pastBlanks_invoke _ _
  | numeral => exact .bind fun _ => .bind fun _ => .pure trivial
  | string => exact .bind fun _ => .pure trivial
  | command => exact .bind fun _ => .bind fun _ => .pure trivial
  | unknown =>
    intro m move m' h
    cases h

theorem staysIn_invoke (cursor : Cursor) (v : Value) :
    Answers (Move.StaysIn cursor.text) (invoke cursor v) := by
  cases v with
  | text t => exact .pure rfl
  | int | float => exact .bind fun _ => .pure rfl

theorem staysIn_execute (cursor : Cursor) (frame : Frame) (callers : List Frame) :
    Answers (Move.StaysIn cursor.text) (execute host name cursor frame callers) := by
  refine .bind fun _ => .bind fun action => .bind fun _ => ?_
  cases action with
  | proceed | skipName | negate => exact .pure rfl
  | quit => exact .pure trivial
  | comment => exact .pure (Cursor.text_line cursor)
  | callRegister => exact .bind fun _ => staysIn_invoke (cursor.advance 1) _
  | callTop => exact .bind fun _ => staysIn_invoke cursor _
  | numeral => exact .bind fun _ => .bind fun _ => .pure rfl
  | string => exact .bind fun _ => .pure (Cursor.text_string cursor)
  | command => exact .bind fun _ => .bind fun _ => .pure (Cursor.text_line cursor)
  | unknown =>
    intro m move m' h
    cases h

/-- An instruction that only asks for an action, and that nothing replaces, is recorded, and then it
gets its action. -/
theorem execute_asking (host : Host) {m : Machine} {action : Action}
    (unreplaced : m.overrides.find? name = none)
    (unnamed : (Instruction.ofName name).needsName = false)
    (asks : ∀ next turned s, (Instruction.ofName name).perform next turned s = .ok { action } s)
    (cursor : Cursor) (frame : Frame) (callers : List Frame) :
    ∃ journal, execute host name cursor frame callers m =
      act host name (cursor.peek?.map ([·])) (frame.begin cursor) callers action
        { m with journal, frames := frame.begin cursor :: callers } := by
  have responds (next : Option Text) (turned : Bool) :
      m.overrides.perform name next turned m.store = .ok { action } m.store := by
    rw [Overrides.perform_of_unreplaced unreplaced]
    simp [Overrides.builtIn_perform, unnamed, asks]
  refine ⟨m.journal.record (callers.length + 1) name frame.cursor.index action
    m.store.stack.length, ?_⟩
  simp only [execute, perform, respond, bind_apply, setFrames, update, onStore, responds]
  rfl

/-- A built-in instruction that has the name it needs is performed, and what it prints is printed. -/
theorem perform_builtIn {m : Machine} {turned : Bool} {response : Response} {s : Store}
    (builtIn : m.overrides = {})
    (named : ((Instruction.ofName name).needsName && next.isNone) = false)
    (answers : (Instruction.ofName name).perform next turned m.store = .ok response s) :
    perform host name next turned m = (do
      ascribing name (printAll host response.prints)
      return response.action) { m with store := s } := by
  have present : ¬ ((Instruction.ofName name).needsName ∧ next = none) := by
    rintro ⟨needs, rfl⟩
    simp [needs] at named
  have responded : respond name next turned m = .ok response { m with store := s } := by
    simp only [respond, onStore, builtIn, Overrides.builtIn_perform, if_neg present, answers]
  rw [perform, bind_ok responded]

theorem agree_invoke (cursor : Cursor) (v : Value) :
    Agree unframed (invoke cursor v) (invoke cursor v) := by
  cases v with
  | text t => exact .pure _
  | int | float => exact .bind (agree_onStore _) fun _ => .pure _

theorem agree_act (obliging : host.Obliging) {f g : Frame} (hc : f.cursor = g.cursor)
    (hp : f.position = g.position) (fs gs : List Frame) (action : Action) :
    Agree unframed (act host name next f fs action) (act host name next g gs action) := by
  cases action with
  | proceed | skipName | quit | comment | negate =>
    simp only [act, hc]
    exact .pure _
  | callRegister | callTop =>
    simp only [act, hc]
    exact .bind (agree_onStore _) fun _ => agree_invoke _ _
  | numeral =>
    simp only [act, hc, hp]
    exact .bind (agree_onStore _) fun _ => .bind (agree_onStore _) fun _ => .pure _
  | string =>
    simp only [act, hc]
    exact .bind (agree_onStore _) fun _ => .pure _
  | command =>
    simp only [act, hc]
    exact .bind (agree_setFrames _ _) fun _ => .bind (agree_command obliging _) fun _ => .pure _
  | unknown =>
    unfold act
    exact agree_onStore _

/-- Frames that stand at the same instruction execute it alike, whoever their callers are. -/
theorem agree_execute (obliging : host.Obliging) (cursor : Cursor) {f g : Frame}
    (hc : f.cursor = g.cursor) (ht : f.turned = g.turned) (fs gs : List Frame) :
    Agree unframed (execute host name cursor f fs) (execute host name cursor g gs) := by
  refine .bind (agree_setFrames _ _) fun _ => .bind ?_ fun action => .bind ?_ fun _ => ?_
  · rw [ht]
    exact agree_perform obliging _ _ _
  · simp only [Frame.begin, hc]
    exact agree_record _ _ _
  · exact agree_act obliging (f := f.begin cursor) (g := g.begin cursor) rfl
      (congrArg Cursor.index hc) _ _ _

theorem commutes_invoke (cursor : Cursor) (v : Value) :
    Commutes (setUnwind u) (invoke cursor v) := by
  cases v with
  | text t => exact .pure _
  | int | float =>
    exact .bind (commutes_onStore (Store.commutes_push _)) fun _ => .pure _

theorem commutes_act (frame : Frame) (callers : List Frame) (action : Action) :
    Commutes (setUnwind u) (act host name next frame callers action) := by
  cases action with
  | proceed | skipName | quit | comment | negate => exact .pure _
  | callRegister =>
    exact .bind (commutes_onStore (Store.commutes_existingRegister _)) fun _ => commutes_invoke _ _
  | callTop =>
    exact .bind (commutes_onStore Store.commutes_pop) fun _ => commutes_invoke _ _
  | numeral =>
    exact .bind (commutes_onStore (Store.commutes_read fun _ => rfl)) fun _ =>
      .bind (commutes_onStore (Store.commutes_push _)) fun _ => .pure _
  | string => exact .bind (commutes_onStore (Store.commutes_push _)) fun _ => .pure _
  | command =>
    exact .bind (commutes_setFrames _) fun _ => .bind (commutes_command host _) fun _ => .pure _
  | unknown =>
    unfold act
    exact commutes_onStore (Store.commutes_fail _)

end Machine

end DeskCalculator
