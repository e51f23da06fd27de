import DeskCalculator.Proofs.Machine.Joining
import DeskCalculator.Proofs.Tokenisation

/-!
How an instruction moves its frame on. Every one moves the cursor by at least its own character, and
none beyond the end of the text: the scanners stop there, a character is only skipped for a name that
is there, and a numeral, which is read from its first character again, has that character at least.
-/

namespace DeskCalculator

namespace Cursor

/-- A cursor that is not further back in the text, and not beyond its end. -/
structure Ahead (c c' : Cursor) : Prop where
  inText : c'.text = c.text
  onward : c.index ≤ c'.index
  within : c'.index ≤ c.text.length

variable {c c' : Cursor} {ch : CodePoint} {rest : Text}

theorem ahead_refl (within : c.index ≤ c.text.length) : c.Ahead c := ⟨rfl, Nat.le_refl _, within⟩

theorem ahead_advance {n : Nat} (within : c.index ≤ c.text.length) (left : n ≤ c.rest.length) :
    c.Ahead (c.advance n) := by
  rw [length_rest] at left
  exact ⟨rfl, Nat.le_add_right _ _, Nat.add_le_of_le_sub' within left⟩

theorem ahead_toEnd (within : c.index ≤ c.text.length) : c.Ahead c.toEnd :=
  ⟨rfl, within, Nat.le_refl _⟩

theorem Ahead.skipBlank (h : c.Ahead c') : c.Ahead c'.skipBlank := by
  have within : c'.index ≤ c'.text.length := h.inText ▸ h.within
  obtain ⟨inText, onward, within⟩ :=
    ahead_advance within (Literal.blankLength_le false c'.rest)
  exact ⟨h.inText, Nat.le_trans h.onward onward, h.inText ▸ within⟩

theorem ahead_line (within : c.index ≤ c.text.length) : c.Ahead c.line.2 := by
  unfold line
  dsimp only
  split
  · rename_i newline
    exact ahead_advance within newline
  · exact ahead_toEnd within

theorem ahead_string (within : c.index ≤ c.text.length) : c.Ahead c.string.2 := by
  unfold string
  cases closed : Literal.closing? 0 c.rest with
  | some k => exact ahead_advance within (Literal.closing?_lt closed)
  | none => exact ahead_toEnd within

/-- A numeral takes the character that it begins with. -/
theorem ahead_numeral (base : Int) (pending : c.rest = ch :: rest)
    (begins : Token.beginsNumeral ch) : (c.advance 1).Ahead (c.numeral base).2 := by
  have here : c.index < c.text.length := index_lt_of_peek? (congrArg List.head? pending)
  have taken := Token.length_numeralRun begins rest
  have left := Literal.length_numeralRun_le c.rest
  rw [← pending] at taken
  rw [length_rest] at left
  refine ⟨rfl, ?_, ?_⟩
  · change c.index + 1 ≤ min c.index c.text.length + (Literal.numeralRun c.rest).length
    omega
  · change min c.index c.text.length + (Literal.numeralRun c.rest).length ≤ c.text.length
    omega

end Cursor

/-- A move goes on ahead of a cursor. -/
def Move.Ahead (c : Cursor) : Move → Prop
  | goOn cursor _ | call _ cursor => c.Ahead cursor
  | quit => True

namespace Machine

variable {host : Host} {calling : Calling} {m m' : Machine} {f f' : Frame}
  {callers below : List Frame} {ch : CodePoint} {rest : Text}

theorem ahead_invoke {c cursor : Cursor} (ahead : c.Ahead cursor) (v : Value) :
    Answers (Move.Ahead c) (invoke cursor v) := by
  cases v with
  | text t => exact .pure ahead.skipBlank
  | int | float => exact .bind fun _ => .pure ahead.skipBlank

/-- Whatever an instruction asks for, it is done ahead of the character of the instruction. -/
theorem ahead_act {action : Action} (pending : f.cursor.rest = ch :: rest)
    (asked : Overrides.Asked [ch] (rest.head?.map ([·])) action) (next : Option Text) :
    Answers (Move.Ahead (f.cursor.advance 1))
      (act host [ch] next (f.begin (f.cursor.advance 1)) callers action) := by
  have within : (f.cursor.advance 1).index ≤ f.cursor.text.length :=
    Cursor.index_lt_of_peek? (congrArg List.head? pending)
  have behind : (f.cursor.advance 1).rest = rest := by
    rw [Cursor.rest_advance, pending]
    rfl
  have named (looks : action = .callRegister ∨ action = .negate ∨ action = .skipName) :
      (f.cursor.advance 1).Ahead ((f.cursor.advance 1).advance 1) := by
    refine Cursor.ahead_advance within ?_
    rw [behind]
    refine List.length_pos_iff.mpr ?_
    rintro rfl
    exact asked.next_ne_none looks rfl
  cases action with
  | proceed | negate => exact .pure (Cursor.ahead_refl within)
  | skipName => exact .pure (named (.inr (.inr rfl)))
  | callRegister => exact .bind fun _ => ahead_invoke (named (.inl rfl)) _
  | callTop => exact .bind fun _ => ahead_invoke (Cursor.ahead_refl within) _
  | quit => exact .pure trivial
  | numeral =>
    refine .bind fun base => .bind fun _ => .pure ?_
    exact Cursor.ahead_numeral base pending (Token.beginsNumeral_of_numeral asked.numeral)
  | string => exact .bind fun _ => .pure (Cursor.ahead_string within)
  | comment => exact .pure (Cursor.ahead_line within)
  | command => exact .bind fun _ => .bind fun _ => .pure (Cursor.ahead_line within)
  | unknown =>
    intro m move m' h
    cases h

theorem ahead_of_move {move : Move} (builtIn : m.overrides = {}) (frames : m.frames = f :: callers)
    (moved : m.move? host = some move) : move.Ahead (f.cursor.advance 1) := by
  simp only [move?, frames] at moved
  cases pending : f.cursor.rest with
  | nil => simp [Cursor.next?, Cursor.peek?, pending] at moved
  | cons ch rest =>
    simp only [Cursor.next?, Cursor.peek?, pending, List.head?_cons, Option.map_some] at moved
    cases executed : execute host [ch] (f.cursor.advance 1) f callers m with
    | error failure m₁ => simp [executed] at moved
    | ok move' m₁ =>
      simp only [executed, Option.some.injEq] at moved
      subst moved
      obtain ⟨action, m₂, asked, acted⟩ := act_of_execute builtIn pending executed
      exact ahead_act pending asked _ _ _ _ acted

/-- What becomes of a frame whose instruction has been executed. It is left, or it stands where it
was, alone or beneath a callee, and its cursor has moved on; or another text takes its place, from
the start. -/
inductive Advances (f : Frame) (callers : List Frame) : List Frame → Prop where
  | left {frames : List Frame} (left : frames <:+ callers) : Advances f callers frames
  | goesOn {f' : Frame} (ahead : (f.cursor.advance 1).Ahead f'.cursor) :
      Advances f callers (f' :: callers)
  | waits {f' : Frame} {text : Text} (ahead : (f.cursor.advance 1).Ahead f'.cursor) :
      Advances f callers (Frame.ofText Frame.macroName text :: f' :: callers)
  | replaced {g : Frame} {text : Text} (fresh : g.cursor = ⟨text, 0⟩)
      (deeper : g.tailDepth = f.tailDepth + 1) : Advances f callers (g :: callers)

theorem advances_of_step {signal : Option Signal} (builtIn : m.overrides = {})
    (frames : m.frames = f :: callers) (stepped : step host calling m = .ok signal m') :
    Advances f callers m'.frames := by
  have turn := (step_turn (frames ▸ List.cons_ne_nil _ _) stepped).1
  have ahead := @ahead_of_move host m f callers
  rw [frames] at turn
  generalize m.move? host = move at turn ahead
  generalize m'.frames = frames' at turn
  cases turn with
  | leave => exact .left (Frame.unwound_suffix _ _ _)
  | goOn => exact .goesOn (ahead builtIn frames rfl)
  | call text before position =>
    have ahead := ahead builtIn frames rfl
    unfold Frame.call
    split
    · exact .replaced rfl rfl
    · exact .waits ahead

end Machine

end DeskCalculator
