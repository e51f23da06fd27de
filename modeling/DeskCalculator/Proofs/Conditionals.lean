import DeskCalculator.Proofs.Journal
import DeskCalculator.Proofs.Quotients
import DeskCalculator.Proofs.Tokenisation

/-!
Comparisons and the bang that turns their sense. The sense of an instruction is turned only if it is
a comparison, and the instruction in front of it, in the same text and with nothing between them, is
a bang. No call takes this along. So of the three comparisons one calls its register, and each of the
three turned ones calls its register if the plain one does not.
-/

namespace DeskCalculator

namespace Token

variable {text t : Text} {i position skip : Nat}

/-- The positions where tokens start are told in order. -/
theorem pairwise_startsFrom (position skip : Nat) (t : Text) :
    (startsFrom position skip t).Pairwise (· < ·) := by
  induction t generalizing position skip with
  | nil => exact .nil
  | cons c rest ih =>
    cases skip with
    | zero => exact .cons (fun _ later => le_of_mem_startsFrom later) (ih _ _)
    | succ skip => exact ih _ _

/-- Whether a comparison stands at a position directly behind a bang, the bang being a token and not
a part of one. -/
def Turned (text : Text) (i : Nat) : Prop :=
  ∃ start ∈ starts text, start + 1 = i ∧ text[start]? = some (.scalar '!') ∧
    ∃ relation : Relation, text[i]? = some relation.symbol

theorem not_turned_zero (text : Text) : ¬ Turned text 0 := by
  rintro ⟨start, -, next, -⟩
  omega

theorem mem_comparisons_iff (c : CodePoint) :
    comparisons.contains c = true ↔ ∃ relation : Relation, c = relation.symbol := by
  constructor
  · intro sign
    obtain rfl | rfl | rfl : c = .scalar '<' ∨ c = .scalar '=' ∨ c = .scalar '>' := by
      simpa [comparisons, Text.ofString] using sign
    · exact ⟨.less, rfl⟩
    · exact ⟨.equal, rfl⟩
    · exact ⟨.greater, rfl⟩
  · rintro ⟨relation, rfl⟩
    cases relation <;> decide

theorem any_comparisons_iff (rest : Text) :
    rest.head?.any (comparisons.contains ·) = true ↔
      ∃ relation : Relation, rest.head? = some relation.symbol := by
  cases rest with
  | nil => simp
  | cons c rest => simpa using mem_comparisons_iff c

/-- A bang in front of a comparison is a token of its own. -/
theorem further_bang {rest : Text} {relation : Relation}
    (compares : rest.head? = some relation.symbol) : further (.scalar '!') rest = 0 := by
  have bang : Instruction.ofName [.scalar '!'] = .bang := rfl
  rw [further_eq, bang, furtherOf, if_pos ((any_comparisons_iff rest).mpr ⟨relation, compares⟩)]

theorem visible_symbol {relation : Relation} (found : text[i]? = some relation.symbol) :
    Visible text i := by
  refine ⟨_, found, ?_⟩
  cases relation <;> decide

end Token

namespace Cursor

variable {c c' : Cursor} {ch : CodePoint} {rest : Text} {ps : List Nat}

theorem getElem?_index (h : c.rest = ch :: rest) : c.text[c.index]? = some ch :=
  List.head?_drop.symm.trans (congrArg List.head? h)

theorem getElem?_index_succ (h : c.rest = ch :: rest) : c.text[c.index + 1]? = rest.head? := by
  have behind : (c.advance 1).rest = rest := by
    rw [rest_advance, h]
    rfl
  exact List.head?_drop.symm.trans (congrArg List.head? behind)

/-- Where something is left to read, a token starts at the cursor. -/
theorem head?_tokens (h : c.rest ≠ []) : c.tokens.head? = some c.index := by
  obtain ⟨ch, rest, pending⟩ := List.exists_cons_of_ne_nil h
  rw [tokens_of_pending pending]
  rfl

theorem rest_ne_nil_of_found (found : c.text[c.index]? = some ch) : c.rest ≠ [] := by
  intro ended
  have first : c.rest.head? = some ch := List.head?_drop.trans found
  simp [ended] at first

/-- Nothing is passed over where something visible stands at the cursor. -/
theorem Reaches.index_eq (reached : c.Reaches c') (visible : Token.Visible c.text c.index) :
    c'.index = c.index := by
  obtain ⟨-, between, tokens, hidden⟩ := reached
  have first := head?_tokens (rest_ne_nil_of_found visible.choose_spec.1)
  rw [tokens] at first
  have arrived : c'.tokens.head? = some c.index := by
    cases between with
    | nil => exact first
    | cons i more =>
      obtain rfl := Option.some.inj first
      exact absurd visible (hidden _ List.mem_cons_self)
  have there : c'.rest ≠ [] := by
    intro ended
    simp [tokens_of_end ended] at arrived
  exact Option.some.inj ((head?_tokens there).symm.trans arrived)

/-- The visible token directly in front of a cursor that has just been moved on is the one that has
been read. -/
theorem eq_index_of_start {i : Nat} (passed : c.Passed ps) (pending : c.rest = ch :: rest)
    (reached : (c.advance (1 + Token.further ch rest)).Reaches c') (left : c'.rest ≠ [])
    (start : i ∈ Token.starts c.text) (next : i + 1 = c'.index)
    (visible : Token.Visible c.text i) : i = c.index := by
  obtain ⟨before, tokens, -, -⟩ := passed
  obtain ⟨-, between, tokens', hidden⟩ := reached
  have split : Token.starts c.text = before ++ c.index :: (between ++ c'.tokens) := by
    rw [tokens, tokens_of_pending pending, tokens']
  have sorted := Token.pairwise_startsFrom 0 0 c.text
  rw [← Token.starts, split] at sorted
  obtain ⟨-, onward, inOrder⟩ := List.pairwise_append.mp sorted
  have ahead : c'.index ∈ c'.tokens := List.mem_of_head? (head?_tokens left)
  have forward := List.rel_of_pairwise_cons onward (List.mem_append_right between ahead)
  rw [split] at start
  obtain earlier | now := List.mem_append.mp start
  · have := inOrder i earlier c.index List.mem_cons_self
    omega
  · obtain same | behind := List.mem_cons.mp now
    · exact same
    · obtain blank | later := List.mem_append.mp behind
      · exact absurd visible (hidden i blank)
      · have := Token.le_of_mem_startsFrom later
        omega

/-- When the instruction at a cursor has been read, the sense of the next one is turned if a bang has
been read and a comparison follows it. -/
theorem turned_iff (passed : c.Passed ps) (pending : c.rest = ch :: rest)
    (reached : (c.advance (1 + Token.further ch rest)).Reaches c') :
    Token.Turned c'.text c'.index ↔
      ch = .scalar '!' ∧ ∃ relation : Relation, rest.head? = some relation.symbol := by
  have inText : c'.text = c.text := reached.1
  have first := getElem?_index pending
  have second := getElem?_index_succ pending
  constructor
  · rintro ⟨i, start, next, bang, relation, compares⟩
    have left := rest_ne_nil_of_found compares
    rw [inText] at start bang compares
    obtain rfl := eq_index_of_start passed pending reached left start next
      ⟨_, bang, by decide, by decide⟩
    refine ⟨Option.some.inj (first.symm.trans bang), relation, ?_⟩
    rw [← second, next, compares]
  · rintro ⟨rfl, relation, compares⟩
    rw [Token.further_bang compares] at reached
    have compares : c.text[c.index + 1]? = some relation.symbol := second.trans compares
    have index : c'.index = c.index + 1 := reached.index_eq (Token.visible_symbol compares)
    refine ⟨c.index, ?_, index.symm, ?_, relation, ?_⟩
    · obtain ⟨before, tokens, -, -⟩ := passed
      rw [inText, tokens, tokens_of_pending pending]
      exact List.mem_append_right _ List.mem_cons_self
    · rw [inText, first]
    · rw [inText, index, compares]

end Cursor

/-- The sense of the next comparison is turned where the text has it turned. -/
def Frame.Marked (f : Frame) : Prop :=
  f.turned = true ↔ Token.Turned f.cursor.text f.cursor.index

theorem Frame.marked_of_fresh {f : Frame} {text : Text} (fresh : f.cursor = ⟨text, 0⟩)
    (unturned : f.turned = false) : f.Marked := by
  simp [Frame.Marked, fresh, unturned, Token.not_turned_zero]

/-- Whether the sense of the next comparison is turned. -/
def Move.turns : Move → Bool
  | goOn _ turned => turned
  | _ => false

theorem Overrides.Asked.negate_iff {ch : CodePoint} {rest : Text} {action : Action}
    (asked : Asked [ch] (rest.head?.map ([·])) action) :
    action = .negate ↔
      ch = .scalar '!' ∧ ∃ relation : Relation, rest.head? = some relation.symbol := by
  have listed := asked.listed
  rw [← Token.any_comparisons_iff, ← Token.any_isComparison]
  constructor
  · rintro rfl
    cases hi : Instruction.ofName [ch] with
    | bang =>
      refine ⟨Instruction.eq_of_sign? hi rfl, ?_⟩
      by_contra commands
      rw [hi, Instruction.actions, if_neg commands] at listed
      cases List.mem_singleton.mp listed
    | _ =>
      rw [hi] at listed
      simp [Instruction.actions] at listed
  · rintro ⟨rfl, compares⟩
    change action ∈ if _ then _ else _ at listed
    rw [if_pos compares] at listed
    exact List.mem_singleton.mp listed

namespace Machine

variable {host : Host} {calling : Calling} {name source text : Text} {start m m' : Machine}
  {calls : List Nat} {f g : Frame} {callers below : List Frame} {ch : CodePoint} {rest : Text}
  {ps : List Nat}

theorem turns_invoke (cursor : Cursor) (v : Value) :
    Answers (fun move => move.turns = false) (invoke cursor v) := by
  cases v with
  | text t => exact .pure rfl
  | int | float => exact .bind fun _ => .pure rfl

/-- Only a bang that asks for it turns the sense of what follows. -/
theorem turns_act (next : Option Text) (frame : Frame) (callers : List Frame) (action : Action) :
    Answers (fun move => move.turns = true ↔ action = .negate)
      (act host name next frame callers action) := by
  have plain {c : Activity Move} (h : Answers (fun move => move.turns = false) c)
      (other : action ≠ .negate) : Answers (fun move => move.turns = true ↔ action = .negate) c :=
    fun m move m' done => by simp [h m move m' done, other]
  cases action with
  | negate => exact .pure (iff_of_true rfl rfl)
  | proceed | skipName | quit | comment => exact plain (.pure rfl) nofun
  | callRegister | callTop => exact plain (.bind fun _ => turns_invoke _ _) nofun
  | numeral | command => exact plain (.bind fun _ => .bind fun _ => .pure rfl) nofun
  | string => exact plain (.bind fun _ => .pure rfl) nofun
  | unknown =>
    intro m move m' done
    cases done

theorem turns_execute {move : Move} (builtIn : m.overrides = {})
    (pending : f.cursor.rest = ch :: rest)
    (executed : execute host [ch] (f.cursor.advance 1) f callers m = .ok move m') :
    move.turns = true ↔
      ch = .scalar '!' ∧ ∃ relation : Relation, rest.head? = some relation.symbol := by
  obtain ⟨action, m₁, asked, acted⟩ := act_of_execute builtIn pending executed
  exact (turns_act _ _ _ _ _ _ _ acted).trans asked.negate_iff

/-- Every frame knows whether the sense of its next comparison is turned, and in those that wait for
a callee it is not. -/
structure Marking (m : Machine) : Prop where
  marked : ∀ f ∈ m.frames, f.Marked
  waiting : ∀ f ∈ m.frames.tail, f.turned = false

/-- The frames in front of some that were there before may be new. -/
theorem Marking.of_append (new : List Frame) (marking : m.Marking) (frames : m.frames = f :: callers)
    (left : below <:+ callers) (frames' : m'.frames = new ++ below) (marked : ∀ g ∈ new, g.Marked)
    (waiting : ∀ g ∈ new.tail, g.turned = false) : m'.Marking := by
  have old (g : Frame) (mem : g ∈ below) : g.Marked ∧ g.turned = false := by
    have caller := left.subset mem
    refine ⟨marking.marked g ?_, marking.waiting g ?_⟩
    · rw [frames]
      exact List.mem_cons_of_mem _ caller
    · rwa [frames]
  constructor
  · intro g mem
    rw [frames'] at mem
    obtain fresh | mem := List.mem_append.mp mem
    · exact marked g fresh
    · exact (old g mem).1
  · intro g mem
    rw [frames'] at mem
    cases new with
    | nil => exact (old g (List.mem_of_mem_tail mem)).2
    | cons first others =>
      obtain fresh | mem := List.mem_append.mp mem
      · exact waiting g fresh
      · exact (old g mem).2

/-- What has been read tells whether the next comparison is turned, and a text that begins turns
nothing. -/
theorem Marking.of_step {signal : Option Signal} (marking : m.Marking) (builtIn : m.overrides = {})
    (frames : m.frames = f :: callers) (passed : f.cursor.Passed ps)
    (stepped : step host calling m = .ok signal m') : m'.Marking := by
  cases pending : f.cursor.rest with
  | nil =>
    rw [step_of_end frames (congrArg List.head? pending)] at stepped
    cases stepped
    exact marking.of_append [] frames List.suffix_rfl rfl nofun nofun
  | cons ch rest =>
    rw [step_of_pending frames (congrArg List.head? pending)] at stepped
    obtain ⟨move, m₁, executed, followed⟩ := bind_eq_ok.mp stepped
    have lands := lands_execute builtIn pending executed
    have turns := turns_execute builtIn pending executed
    cases move with
    | goOn cursor turned =>
      cases followed
      refine marking.of_append [_] frames List.suffix_rfl rfl ?_ nofun
      exact List.forall_mem_singleton.mpr (turns.trans (Cursor.turned_iff passed pending lands).symm)
    | call text cursor =>
      cases followed
      have caller : ({ f.begin (f.cursor.advance 1) with cursor } : Frame).Marked :=
        turns.trans (Cursor.turned_iff passed pending lands).symm
      refine marking.of_append _ frames List.suffix_rfl rfl ?_ ?_
      · unfold Frame.call
        split
        · exact List.forall_mem_singleton.mpr (Frame.marked_of_fresh rfl rfl)
        · exact List.forall_mem_cons.mpr
            ⟨Frame.marked_of_fresh rfl rfl, List.forall_mem_singleton.mpr caller⟩
      · unfold Frame.call
        split
        · exact nofun
        · exact List.forall_mem_singleton.mpr rfl
    | quit =>
      obtain ⟨ended, m₂, left⟩ := quit_leaves (f.begin (f.cursor.advance 1)) callers m₁
      cases left.symm.trans followed
      exact marking.of_append [] frames (Frame.unwound_suffix _ _ _) rfl nofun nofun

theorem Underway.marking (h : Underway host calling name source start m calls)
    (builtIn : start.overrides = {}) : m.Marking := by
  induction h with
  | begin told =>
    exact ⟨List.forall_mem_singleton.mpr (Frame.marked_of_fresh rfl rfl), nofun⟩
  | step underway stepped marking =>
    obtain ⟨f, callers, frames⟩ := List.exists_cons_of_ne_nil underway.running
    obtain ⟨ps, reading⟩ := underway.allRead builtIn f callers (frames ▸ List.suffix_rfl)
    exact marking.of_step (underway.overrides.trans builtIn) frames reading.passed.2 stepped

/-- No call takes a turned sense along, neither to the text that is called nor back to the caller. -/
theorem Marking.unturned_of_call {cursor : Cursor} {signal : Option Signal} (marking : m.Marking)
    (running : m.frames ≠ []) (calls : m.move? host = some (.call text cursor))
    (stepped : step host calling m = .ok signal m') : ∀ g ∈ m'.frames, g.turned = false := by
  have turn := (step_turn running stepped).1
  have waiting := marking.waiting
  generalize m.frames = frames at turn waiting
  generalize m'.frames = frames' at turn
  rw [calls] at turn
  cases turn with
  | leave signal unwind leaves => exact absurd leaves (by simp)
  | call text before position =>
    refine List.forall_mem_append.mpr ⟨?_, waiting⟩
    unfold Frame.call
    split
    · exact List.forall_mem_singleton.mpr rfl
    · exact List.forall_mem_cons.mpr ⟨rfl, List.forall_mem_singleton.mpr rfl⟩

/-- A bang in front of a comparison is a token if and only if it has been dispatched. -/
theorem Reading.turned_iff (h : Reading host calling f.cursor.text below m f ps) :
    Token.Turned f.cursor.text f.cursor.index ↔
      (∃ relation : Relation, f.cursor.peek? = some relation.symbol) ∧
        ∃ i ∈ ps, i + 1 = f.cursor.index ∧ f.cursor.text[i]? = some (.scalar '!') := by
  have here : f.cursor.peek? = f.cursor.text[f.cursor.index]? := List.head?_drop
  rw [here]
  constructor
  · rintro ⟨i, start, next, bang, compares⟩
    have dispatched := h.covered.complete i start (by omega) ⟨_, bang, by decide, by decide⟩
    exact ⟨compares, i, dispatched, next, bang⟩
  · rintro ⟨compares, i, dispatched, next, bang⟩
    exact ⟨i, h.covered.inOrder.subset dispatched, next, bang, compares⟩

end Machine

/-- Two numbers stand to each other in some order, whichever instruction compares them. -/
theorem Value.compare_of_isNumber {upper lower : Value} (upperNumber : upper.isNumber)
    (lowerNumber : lower.isNumber) :
    ∃ order, ∀ rule, upper.compare rule lower = .ok order := by
  cases upper with
  | text => cases upperNumber
  | int | float =>
    cases lower with
    | text => cases lowerNumber
    | int | float => exact ⟨_, fun _ => rfl⟩

/-- Of the three relations one holds. -/
theorem Relation.existsUnique_holds (order : Ordering) :
    ∃ chosen : Relation, ∀ relation : Relation, relation.holds order = decide (relation = chosen) := by
  cases order with
  | lt => exact ⟨.less, fun relation => by cases relation <;> decide⟩
  | eq => exact ⟨.equal, fun relation => by cases relation <;> decide⟩
  | gt => exact ⟨.greater, fun relation => by cases relation <;> decide⟩

/-- A comparison in its own sense, or in the opposite one behind a bang. -/
structure Conditional where
  relation : Relation
  negated : Bool
  deriving DecidableEq, Repr

namespace Conditional

/-- How a conditional is written; the name of a register follows. -/
def signs (c : Conditional) : Text :=
  if c.negated then [.scalar '!', c.relation.symbol] else [c.relation.symbol]

/-- Whether the register is called when `chosen` is the relation that holds. -/
def Selects (c : Conditional) (chosen : Relation) : Prop :=
  if c.negated then c.relation ≠ chosen else c.relation = chosen

instance (c : Conditional) (chosen : Relation) : Decidable (c.Selects chosen) :=
  inferInstanceAs (Decidable (if c.negated then c.relation ≠ chosen else c.relation = chosen))

theorem selects_iff {chosen : Relation} {order : Ordering} (c : Conditional)
    (holds : ∀ relation : Relation, relation.holds order = decide (relation = chosen)) :
    (c.relation.holds order != c.negated) = true ↔ c.Selects chosen := by
  rw [holds, Selects]
  cases c.negated <;> simp

/-- The frame that comes to a conditional as it comes to the comparison. -/
def ready (c : Conditional) (f : Frame) : Frame :=
  if c.negated then { f.begin (f.cursor.advance 1) with turned := true } else f

end Conditional

namespace Machine

variable {host : Host} {calling : Calling} {m : Machine} {f : Frame} {callers : List Frame}
  {r : CodePoint} {upper lower : Value} {below : List Value} {order : Ordering}

/-- A machine that comes to a conditional on the register `r`. -/
structure Faces (c : Conditional) (r : CodePoint) (f : Frame) (callers : List Frame) (m : Machine) :
    Prop where
  builtIn : m.overrides = {}
  frames : m.frames = f :: callers
  plain : f.turned = false
  ahead : ∃ more, f.cursor.rest = c.signs ++ r :: more

theorem perform_compare (host : Host) (builtIn : m.overrides = {})
    (stack : m.store.stack = upper :: lower :: below)
    (compared : ∀ rule, upper.compare rule lower = .ok order) (relation : Relation) (r : CodePoint)
    (turned : Bool) :
    perform host [relation.symbol] (some [r]) turned m =
      .ok (if relation.holds order != turned then .callRegister else .skipName)
        { m with store := { m.store with stack := below } } := by
  have named : Instruction.ofName [relation.symbol] = .compare relation := by
    cases relation <;> rfl
  have answers : (Instruction.ofName [relation.symbol]).perform (some [r]) turned m.store =
      .ok { action := if relation.holds order != turned then .callRegister else .skipName }
        { m.store with stack := below } := by
    rw [named, Instruction.perform, Instruction.performCompare, Store.pop_pop stack, compared]
    rfl
  rw [perform_builtIn builtIn (Bool.and_false _) answers]
  rfl

/-- A bang in front of a comparison does nothing but to turn its sense. -/
theorem step_bang (host : Host) (calling : Calling) (builtIn : m.overrides = {})
    (frames : m.frames = f :: callers) {relation : Relation} {more : Text}
    (ahead : f.cursor.rest = .scalar '!' :: relation.symbol :: more) :
    ∃ journal, step host calling m = .ok none { m with
      journal, frames := { f.begin (f.cursor.advance 1) with turned := true } :: callers } := by
  have next : (f.cursor.advance 1).peek?.map ([·]) = some [relation.symbol] := by
    rw [Cursor.peek?, Cursor.rest_advance, ahead]
    rfl
  have answers : (Instruction.ofName [.scalar '!']).perform (some [relation.symbol]) f.turned
      (m.begun f callers).store = .ok { action := .negate } (m.begun f callers).store := by
    cases relation <;> rfl
  have performed : perform host [.scalar '!'] ((f.cursor.advance 1).peek?.map ([·])) f.turned
      (m.begun f callers) = .ok .negate (m.begun f callers) := by
    rw [next]
    exact perform_builtIn (m := m.begun f callers) builtIn rfl answers
  rw [step_of_pending frames (congrArg List.head? ahead), bind_apply,
    execute_of_performed performed]
  exact ⟨_, rfl⟩

/-- The plain conditional begins with its comparison, and the turned one comes to it in a step. -/
theorem Faces.ready {c : Conditional} (host : Host) (calling : Calling)
    (faces : Faces c r f callers m) :
    (c.ready f).turned = c.negated ∧
      (∃ more, (c.ready f).cursor.rest = c.relation.symbol :: r :: more) ∧
      ∃ journal, steps host calling c.negated.toNat m =
        .ok none { m with journal, frames := c.ready f :: callers } := by
  obtain ⟨more, ahead⟩ := faces.ahead
  obtain ⟨relation, negated⟩ := c
  cases negated with
  | false =>
    refine ⟨faces.plain, ⟨more, ahead⟩, m.journal, ?_⟩
    have same : { m with frames := f :: callers } = m := by rw [← faces.frames]
    exact congrArg (EStateM.Result.ok none) same.symm
  | true =>
    refine ⟨rfl, ⟨more, ?_⟩, ?_⟩
    · change (f.cursor.advance 1).rest = _
      rw [Cursor.rest_advance, ahead]
      rfl
    · obtain ⟨journal, turned⟩ := step_bang host calling faces.builtIn faces.frames ahead
      exact ⟨journal, (steps_one m).trans turned⟩

theorem step_compare (host : Host) (calling : Calling) (builtIn : m.overrides = {})
    (frames : m.frames = f :: callers) {relation : Relation} {more : Text}
    (ahead : f.cursor.rest = relation.symbol :: r :: more)
    (stack : m.store.stack = upper :: lower :: below)
    (compared : ∀ rule, upper.compare rule lower = .ok order) :
    let begun := f.begin (f.cursor.advance 1)
    ∃ journal, step host calling m =
      (act host [relation.symbol] (some [r]) begun callers
          (if relation.holds order != f.turned then .callRegister else .skipName) >>=
        follow calling begun callers)
        { m with journal, store := { m.store with stack := below }, frames := begun :: callers } := by
  have next : (f.cursor.advance 1).peek?.map ([·]) = some [r] := by
    rw [Cursor.peek?, Cursor.rest_advance, ahead]
    rfl
  have performed := perform_compare (m := m.begun f callers) host builtIn stack compared relation r
    f.turned
  rw [← next] at performed
  rw [step_of_pending frames (congrArg List.head? ahead), bind_apply,
    execute_of_performed performed, next, ← bind_apply]
  exact ⟨_, rfl⟩

/-- With the built-in instructions the sense is turned if and only if a comparison stands at the place
of a frame and a bang that has been dispatched stands directly in front of it, in the same text. It is
not turned in a frame that waits for a callee, and a call takes it along nowhere. So, where two
numbers are on top of the stack, one relation holds: the plain conditional that has this relation
calls its register, and so do the turned ones that have not. All six take the two numbers, and change
nothing else but the journal and the place in the text before they call the register or pass it
over. -/
theorem conditionals_decided (host : Host) (calling : Calling) :
    (∀ name source start m calls, start.overrides = {} →
      Underway host calling name source start m calls →
        (∀ f below, f :: below <:+ m.frames →
          (∃ ps, Reading host calling f.cursor.text below m f ps) ∧
          ∀ ps, Reading host calling f.cursor.text below m f ps →
            (f.turned = true ↔
              (∃ relation : Relation, f.cursor.peek? = some relation.symbol) ∧
                ∃ i ∈ ps, i + 1 = f.cursor.index ∧ f.cursor.text[i]? = some (.scalar '!'))) ∧
        (∀ f ∈ m.frames.tail, f.turned = false) ∧
        ∀ text cursor m', m.move? host = some (.call text cursor) →
          step host calling m = .ok none m' → ∀ f ∈ m'.frames, f.turned = false) ∧
    ∀ s upper lower rest, s.stack = upper :: lower :: rest → upper.isNumber → lower.isNumber →
      ∃ chosen : Relation,
        (∃ order, (∀ rule, upper.compare rule lower = .ok order) ∧ chosen.holds order) ∧
        ∀ c r m f callers, m.store = s → Faces c r f callers m →
          ∃ journal journal',
            let ready := c.ready f
            let begun := ready.begin (ready.cursor.advance 1)
            let m₁ := { m with journal, frames := ready :: callers }
            steps host calling c.negated.toNat m = .ok none m₁ ∧ ready.turned = c.negated ∧
              step host calling m₁ =
                (act host [c.relation.symbol] (some [r]) begun callers
                    (if c.Selects chosen then .callRegister else .skipName) >>=
                  follow calling begun callers)
                  { m₁ with
                    journal := journal', store := { s with stack := rest },
                    frames := begun :: callers } := by
  constructor
  · intro name source start m calls builtIn underway
    have marking := underway.marking builtIn
    refine ⟨fun f below there => ?_, marking.waiting, fun text cursor m' calls stepped =>
      marking.unturned_of_call underway.running calls stepped⟩
    refine ⟨underway.allRead builtIn f below there, fun ps reading => ?_⟩
    exact (marking.marked f (there.subset List.mem_cons_self)).trans reading.turned_iff
  · intro s upper lower rest stack upperNumber lowerNumber
    obtain ⟨order, compared⟩ := Value.compare_of_isNumber upperNumber lowerNumber
    obtain ⟨chosen, holds⟩ := Relation.existsUnique_holds order
    refine ⟨chosen, ⟨order, compared, by simp [holds]⟩, ?_⟩
    rintro c r m f callers rfl faces
    obtain ⟨turned, ⟨more, ahead⟩, journal, came⟩ := faces.ready host calling
    obtain ⟨journal', stepped⟩ := step_compare (m := { m with journal, frames := c.ready f :: callers })
      host calling faces.builtIn rfl ahead stack compared
    refine ⟨journal, journal', came, turned, ?_⟩
    simpa only [turned, c.selects_iff holds] using stepped

/-- In `zz!>r` the depths 0 and 1 are compared. The upper one is greater, so the turned conditional
passes over its register. -/
theorem conditionals_decided_turned :
    let text := Text.ofString "zz!>r"
    let f : Frame := { name := [], cursor := ⟨text, 2⟩, position := 1 }
    let f' : Frame := { name := [], cursor := ⟨text, 3⟩, position := 2, turned := true }
    ∃ m m₁ m₂ calls, Faces ⟨.greater, true⟩ (.scalar 'r') f [] m ∧
      m.store.stack = [.int 1, .int 0] ∧ step {} .flat m = .ok none m₁ ∧
      Underway {} .flat [] text {} m₁ calls ∧ m₁.frames = [f'] ∧
      Reading {} .flat text [] m₁ f' [0, 1, 2] ∧
      (∃ i ∈ [0, 1, 2], i + 1 = 3 ∧ text[i]? = some (.scalar '!')) ∧
      step {} .flat m₁ = .ok none m₂ ∧ m₂.store = { m.store with stack := [] } := by
  intro text f f'
  let frame (index : Nat) : Frame := { name := [], cursor := ⟨text, index⟩, position := index - 1 }
  let m₀ : Machine :=
    { leftState (emit {} (.programStart text) ({} : Machine).cleared) with frames := [frame 0] }
  let m₁ := leftState (step {} .flat m₀)
  let m := leftState (step {} .flat m₁)
  have first : step {} .flat m₀ = .ok none m₁ := rfl
  have second : step {} .flat m₁ = .ok none m := rfl
  have begun : Underway {} .flat [] text {} m₀ [] := .begin rfl
  have fresh : Reading {} .flat text [] m₀ (frame 0) [] := .begins rfl rfl rfl
  have pushed : Reading {} .flat text [] m₁ (frame 1) [0] :=
    fresh.dispatches rfl rfl first List.suffix_rfl rfl
  have reading : Reading {} .flat text [] m f [0, 1] :=
    pushed.dispatches rfl rfl second List.suffix_rfl rfl
  have faces : Faces ⟨.greater, true⟩ (.scalar 'r') f [] m := ⟨rfl, rfl, rfl, [], rfl⟩
  obtain ⟨dispatched, decides⟩ := conditionals_decided {} .flat
  obtain ⟨chosen, ⟨order, compared, holds⟩, decided⟩ :=
    decides m.store (.int 1) (.int 0) [] rfl rfl rfl
  obtain rfl : Ordering.gt = order := Except.ok.inj (compared [])
  obtain rfl : chosen = .greater := by
    cases chosen with
    | greater => rfl
    | less | equal => cases holds
  obtain ⟨journal, journal', came, -, passes⟩ := decided _ _ m f [] rfl faces
  rw [Bool.toNat_true, steps_one] at came
  have underway := ((begun.step first).step second).step came
  have turned : Reading {} .flat text [] _ f' [0, 1, 2] :=
    reading.dispatches rfl rfl came List.suffix_rfl rfl
  obtain ⟨-, behind⟩ := ((dispatched [] text {} _ _ rfl underway).1 f' [] List.suffix_rfl).2 _ turned
    |>.mp rfl
  exact ⟨m, _, _, _, faces, rfl, came, underway, rfl, turned, behind, passes, rfl⟩

end Machine

end DeskCalculator
