import DeskCalculator.Proofs.Machine.Course
import DeskCalculator.Proofs.Machine.Failing
import DeskCalculator.Proofs.Tokens

/-!
How a text is read while it is executed. Whatever is on the stack and in the registers, and
whatever is called on the way, a frame executes the tokens of its text in order, and leaves out
none but blanks and comments. So data never turns a name or a part of a literal into an
instruction.
-/

namespace DeskCalculator

theorem Overrides.Asked.numeral {name : Text} {next : Option Text} (h : Asked name next .numeral) :
    Instruction.ofName name = .numeral := by
  have listed := h.listed
  cases hi : Instruction.ofName name with
  | numeral => rfl
  | bang =>
    rw [hi] at listed
    change Action.numeral ∈ if next.any Instruction.isComparison then _ else _ at listed
    split at listed <;> cases List.mem_singleton.mp listed
  | _ =>
    rw [hi] at listed
    simp [Instruction.actions] at listed

/-- A move goes on at a token behind a cursor. -/
def Move.Lands (c : Cursor) : Move → Prop
  | goOn cursor _ | call _ cursor => c.Reaches cursor
  | quit => True

namespace Token

/-- How many characters behind its own an instruction takes that has asked for an action. -/
def takenBy (rest : Text) : Action → Nat
  | .skipName | .callRegister => 1
  | .numeral => (rest.takeWhile inNumeral).length
  | .string => stringLength rest
  | .comment | .command => lineLength rest
  | .proceed | .callTop | .quit | .negate | .unknown _ => 0

theorem isComparison_singleton (c : CodePoint) :
    Instruction.isComparison [c] = comparisons.contains c := by
  have three : List.range 3 = [0, 1, 2] := rfl
  rw [Bool.eq_iff_iff]
  simp [Instruction.isComparison, comparisons, Text.ofString, three, List.isPrefixOf]

/-- A bang sees the sign of a comparison behind it. -/
theorem any_isComparison (next : Option CodePoint) :
    (next.map ([·])).any Instruction.isComparison = next.any (comparisons.contains ·) := by
  cases next with
  | none => rfl
  | some c => exact isComparison_singleton c

/-- The action that an instruction asks for takes what belongs to its token. -/
theorem further_of_asked {ch : CodePoint} {rest : Text} {action : Action}
    (asked : Overrides.Asked [ch] (rest.head?.map ([·])) action) :
    further ch rest = takenBy rest action := by
  have listed := asked.listed
  rw [further_eq]
  cases hi : Instruction.ofName [ch] with
  | bang =>
    rw [hi] at listed
    simp only [Instruction.actions, any_isComparison] at listed
    simp only [furtherOf]
    split at listed
    · rename_i turns
      obtain rfl := List.mem_singleton.mp listed
      rw [if_pos turns]
      rfl
    · rename_i commands
      obtain rfl := List.mem_singleton.mp listed
      rw [if_neg commands]
      rfl
  | compare r =>
    rw [hi] at listed
    simp only [Instruction.actions, List.mem_cons, List.not_mem_nil, or_false] at listed
    obtain rfl | rfl := listed <;> rfl
  | _ =>
    rw [hi] at listed
    obtain rfl := List.mem_singleton.mp listed
    rfl

end Token

/-- A frame has read its instruction and goes on at a token behind it. -/
def Frame.Reads (f f' : Frame) : Prop :=
  ∃ ch rest, f.cursor.rest = ch :: rest ∧
    (f.cursor.advance (1 + Token.further ch rest)).Reaches f'.cursor

namespace Machine

variable {host : Host} {calling : Calling} {name source text : Text} {start m m' : Machine}
  {calls : List Nat} {f f' : Frame} {callers below : List Frame} {ch : CodePoint} {rest : Text}

theorem lands_invoke {c cursor : Cursor} (reached : c.Reaches cursor) (v : Value) :
    Answers (Move.Lands c) (invoke cursor v) := by
  cases v with
  | text t => exact .pure reached.skipBlank
  | int | float => exact .bind fun _ => .pure reached.skipBlank

/-- What an instruction asks for is done behind its token. -/
theorem lands_act {action : Action} (pending : f.cursor.rest = ch :: rest)
    (asked : Overrides.Asked [ch] (rest.head?.map ([·])) action) (next : Option Text) :
    Answers (Move.Lands (f.cursor.advance (1 + Token.further ch rest)))
      (act host [ch] next (f.begin (f.cursor.advance 1)) callers action) := by
  have behind : (f.cursor.advance 1).rest = rest := by
    rw [Cursor.rest_advance, pending]
    rfl
  have taken := Token.further_of_asked asked
  cases action with
  | proceed | negate =>
    rw [taken]
    exact .pure (Cursor.Reaches.refl _)
  | skipName =>
    rw [taken, ← Cursor.advance_advance]
    exact .pure (Cursor.Reaches.refl _)
  | callRegister =>
    rw [taken, ← Cursor.advance_advance]
    exact .bind fun _ => lands_invoke (.refl _) _
  | callTop =>
    rw [taken]
    exact .bind fun _ => lands_invoke (.refl _) _
  | quit => exact .pure trivial
  | numeral =>
    -- It is read from its first character on, which the cursor has already passed.
    rw [taken]
    refine .bind fun base => .bind fun _ => .pure ?_
    exact Cursor.reaches_numeral base pending (Token.beginsNumeral_of_numeral asked.numeral)
  | string =>
    rw [taken, ← Cursor.advance_advance]
    have string := (f.cursor.advance 1).reaches_string
    rw [behind] at string
    exact .bind fun _ => .pure string
  | comment =>
    rw [taken, ← Cursor.advance_advance]
    have line := (f.cursor.advance 1).reaches_line
    rw [behind] at line
    exact .pure line
  | command =>
    rw [taken, ← Cursor.advance_advance]
    have line := (f.cursor.advance 1).reaches_line
    rw [behind] at line
    exact .bind fun _ => .bind fun _ => .pure line
  | unknown =>
    intro m move m' h
    cases h

/-- An instruction that has been executed has done what it asked for. -/
theorem act_of_execute {move : Move} (builtIn : m.overrides = {})
    (pending : f.cursor.rest = ch :: rest)
    (executed : execute host [ch] (f.cursor.advance 1) f callers m = .ok move m') :
    ∃ action m₁, Overrides.Asked [ch] (rest.head?.map ([·])) action ∧
      act host [ch] ((f.cursor.advance 1).peek?.map ([·])) (f.begin (f.cursor.advance 1)) callers
        action m₁ = .ok move m' := by
  obtain ⟨⟨⟩, m₁, entered, executed⟩ := bind_eq_ok.mp executed
  cases entered
  obtain ⟨action, m₂, performed, executed⟩ := bind_eq_ok.mp executed
  obtain ⟨⟨⟩, m₃, -, acted⟩ := bind_eq_ok.mp executed
  have next : (f.cursor.advance 1).peek? = rest.head? := by
    rw [Cursor.peek?, Cursor.rest_advance, pending]
    rfl
  have begun : (m.begun f callers).overrides = {} := builtIn
  have asked := asked_perform begun performed
  rw [next] at asked
  exact ⟨action, m₃, asked, acted⟩

theorem lands_execute {move : Move} (builtIn : m.overrides = {})
    (pending : f.cursor.rest = ch :: rest)
    (executed : execute host [ch] (f.cursor.advance 1) f callers m = .ok move m') :
    move.Lands (f.cursor.advance (1 + Token.further ch rest)) := by
  obtain ⟨action, m₁, asked, acted⟩ := act_of_execute builtIn pending executed
  exact lands_act pending asked _ _ _ _ acted

/-- What a step may make of the innermost frame. It ends, perhaps with some of its callers; or it
has read its instruction, and then it goes on, or waits for a callee, or another text takes its
place. -/
inductive Steps (f : Frame) (callers : List Frame) : List Frame → Prop where
  | ends {frames : List Frame} (left : frames <:+ callers) : Steps f callers frames
  | goesOn {f' : Frame} (reads : f.Reads f') (same : f'.tailDepth = f.tailDepth) :
      Steps f callers (f' :: callers)
  | waits {f' : Frame} {text : Text} (reads : f.Reads f') (same : f'.tailDepth = f.tailDepth) :
      Steps f callers (Frame.ofText Frame.macroName text :: f' :: callers)
  | givesWay {g : Frame} {text : Text} (fresh : g.cursor = ⟨text, 0⟩)
      (deeper : g.tailDepth = f.tailDepth + 1) : Steps f callers (g :: callers)

theorem steps_of_step {signal : Option Signal} (builtIn : m.overrides = {})
    (frames : m.frames = f :: callers) (stepped : step host calling m = .ok signal m') :
    Steps f callers m'.frames := by
  cases pending : f.cursor.rest with
  | nil =>
    have ended : f.cursor.peek? = none := congrArg List.head? pending
    rw [step_of_end frames ended] at stepped
    cases stepped
    exact .ends List.suffix_rfl
  | cons ch rest =>
    have found : f.cursor.peek? = some ch := congrArg List.head? pending
    rw [step_of_pending frames found] at stepped
    obtain ⟨move, m₁, executed, followed⟩ := bind_eq_ok.mp stepped
    have lands := lands_execute builtIn pending executed
    cases move with
    | goOn cursor turned =>
      cases followed
      exact .goesOn ⟨ch, rest, pending, lands⟩ rfl
    | call text cursor =>
      cases followed
      simp only [Frame.call]
      split
      · exact .givesWay rfl rfl
      · exact .waits ⟨ch, rest, pending, lands⟩ rfl
    | quit =>
      obtain ⟨ended, m₂, left⟩ := quit_leaves (f.begin (f.cursor.advance 1)) callers m₁
      cases left.symm.trans followed
      exact .ends (Frame.unwound_suffix _ _ _)

/-- The positions at which a frame has dispatched the instructions of `text`, from when it began to
execute it with the frames `below`, and as long as it has not stopped. While a callee is innermost
it waits. A text that takes its place has another tail depth. -/
inductive Reading (host : Host) (calling : Calling) (text : Text) (below : List Frame) :
    Machine → Frame → List Nat → Prop where
  | begins {m : Machine} {f : Frame} (builtIn : m.overrides = {}) (frames : m.frames = f :: below)
      (fresh : f.cursor = ⟨text, 0⟩) : Reading host calling text below m f []
  | dispatches {m m' : Machine} {f f' : Frame} {ps : List Nat} {ch : CodePoint}
      (reading : Reading host calling text below m f ps) (innermost : m.frames = f :: below)
      (pending : f.cursor.peek? = some ch) (stepped : step host calling m = .ok none m')
      (there : f' :: below <:+ m'.frames) (same : f'.tailDepth = f.tailDepth) :
      Reading host calling text below m' f' (ps ++ [f.cursor.index])
  | waits {m m' : Machine} {f : Frame} {ps : List Nat}
      (reading : Reading host calling text below m f ps) (covered : m.frames ≠ f :: below)
      (stepped : step host calling m = .ok none m') (there : f :: below <:+ m'.frames) :
      Reading host calling text below m' f ps

theorem builtIn_of_step {signal : Option Signal} (builtIn : m.overrides = {})
    (stepped : step host calling m = .ok signal m') : m'.overrides = {} := by
  have kept : Keeps Machine.overrides (step host calling) :=
    keeps_step (fun _ _ => rfl) (fun _ _ => rfl) (fun _ _ => rfl) fun _ _ => rfl
  exact (kept.of_ok stepped).trans builtIn

theorem Reading.builtIn {ps : List Nat} (h : Reading host calling text below m f ps) :
    m.overrides = {} := by
  induction h with
  | begins builtIn => exact builtIn
  | dispatches _ _ _ stepped _ _ builtIn => exact builtIn_of_step builtIn stepped
  | waits _ _ stepped _ builtIn => exact builtIn_of_step builtIn stepped

theorem eq_of_suffix {frames : List Frame} (h : f :: below <:+ frames)
    (h' : f' :: below <:+ frames) : f = f' := by
  have lengths : (f :: below).length = (f' :: below).length := rfl
  have same := (List.suffix_of_suffix_length_le h h' (Nat.le_of_eq lengths)).eq_of_length lengths
  exact (List.cons.inj same).1

/-- The frame that remains in its place when an instruction of it has been executed has read it. -/
theorem reads_of_step {signal : Option Signal} (builtIn : m.overrides = {})
    (frames : m.frames = f :: below) (stepped : step host calling m = .ok signal m')
    (there : f' :: below <:+ m'.frames) (same : f'.tailDepth = f.tailDepth) : f.Reads f' := by
  have steps := steps_of_step builtIn frames stepped
  generalize m'.frames = frames' at there steps
  cases steps with
  | ends left =>
    have longer := (there.trans left).length_le
    rw [List.length_cons] at longer
    omega
  | goesOn reads =>
    obtain rfl := eq_of_suffix there List.suffix_rfl
    exact reads
  | waits reads =>
    obtain rfl := eq_of_suffix there (List.suffix_cons _ _)
    exact reads
  | givesWay fresh deeper =>
    obtain rfl := eq_of_suffix there List.suffix_rfl
    omega

theorem Reading.passed {ps : List Nat} (h : Reading host calling text below m f ps) :
    f.cursor.text = text ∧ f.cursor.Passed ps := by
  induction h with
  | begins _ _ fresh =>
    rw [fresh]
    exact ⟨rfl, Cursor.passed_start text⟩
  | dispatches reading innermost _ stepped there same ih =>
    obtain ⟨ch, rest, pending, reached⟩ :=
      reads_of_step reading.builtIn innermost stepped there same
    exact ⟨reached.1.trans ih.1, ih.2.read pending reached⟩
  | waits _ _ _ _ ih => exact ih

theorem Reading.covered {ps : List Nat} (h : Reading host calling text below m f ps) :
    Token.Covered text f.cursor.index ps := by
  obtain ⟨rfl, passed⟩ := h.passed
  exact passed.covered

theorem Reading.covered_end {ps : List Nat} (h : Reading host calling text below m f ps)
    (ended : f.cursor.peek? = none) : Token.Covered text text.length ps := by
  obtain ⟨inText, -⟩ := h.passed
  have last : text.length ≤ f.cursor.index := by
    rw [← inText]
    exact List.drop_eq_nil_iff.mp (List.head?_eq_none_iff.mp ended)
  exact ⟨h.covered.inOrder, fun i start earlier => h.covered.complete i start (by omega)⟩

theorem Reading.covered_pending {ps : List Nat} (h : Reading host calling text below m f ps)
    (pending : f.cursor.peek? = some ch) :
    Token.Covered text (f.cursor.index + 1) (ps ++ [f.cursor.index]) := by
  obtain ⟨rfl, passed⟩ := h.passed
  obtain ⟨rest, pending⟩ := List.head?_eq_some_iff.mp pending
  have covered := (passed.read pending (Cursor.Reaches.refl _)).covered
  have onward : f.cursor.index + 1 ≤ (f.cursor.advance (1 + Token.further ch rest)).index := by
    change f.cursor.index + 1 ≤ f.cursor.index + (1 + Token.further ch rest)
    omega
  exact ⟨covered.inOrder, fun i start earlier => covered.complete i start (by omega)⟩

theorem Reading.again {g : Frame} {ps : List Nat}
    (h : Reading host calling g.cursor.text below m g ps) (innermost : m.frames = g :: below)
    (stepped : step host calling m = .ok none m') (there : f :: below <:+ m'.frames)
    (reads : g.Reads f) (same : f.tailDepth = g.tailDepth) :
    Reading host calling f.cursor.text below m' f (ps ++ [g.cursor.index]) := by
  obtain ⟨ch, rest, pending, inText, -⟩ := reads
  rw [inText]
  exact .dispatches h innermost (congrArg List.head? pending) stepped there same

/-- Every frame of the stack reads its text from the start. -/
def AllRead (host : Host) (calling : Calling) (m : Machine) : Prop :=
  ∀ f below, f :: below <:+ m.frames → ∃ ps, Reading host calling f.cursor.text below m f ps

/-- The frame that has executed an instruction reads on, the callers wait, and the text that is
called begins. -/
theorem AllRead.step (read : m.AllRead host calling) (builtIn : m.overrides = {})
    (stepped : step host calling m = .ok none m') (running : m.frames ≠ []) :
    m'.AllRead host calling := by
  intro f below there
  have builtIn' := builtIn_of_step builtIn stepped
  obtain ⟨g, callers, frames⟩ := List.exists_cons_of_ne_nil running
  obtain ⟨ps, reading⟩ := read g callers (frames ▸ List.suffix_rfl)
  -- A caller has been on the stack before, and stays what it was.
  have waiting (beneath : f :: below <:+ callers) :
      ∃ ps, Reading host calling f.cursor.text below m' f ps := by
    have covered : m.frames ≠ f :: below := by
      intro innermost
      have longer := beneath.length_le
      rw [(List.cons.inj (frames.symm.trans innermost)).2, List.length_cons] at longer
      omega
    obtain ⟨ps, reading⟩ := read f below (frames ▸ beneath.trans (List.suffix_cons _ _))
    exact ⟨ps, .waits reading covered stepped there⟩
  have steps := steps_of_step builtIn frames stepped
  generalize frames' : m'.frames = now at steps
  rw [frames'] at there
  cases steps with
  | ends left => exact waiting (there.trans left)
  | goesOn reads same =>
    obtain innermost | beneath := List.suffix_cons_iff.mp there
    · obtain ⟨rfl, rfl⟩ := List.cons.inj innermost
      exact ⟨_, reading.again frames stepped (frames' ▸ there) reads same⟩
    · exact waiting beneath
  | waits reads same =>
    obtain called | caller := List.suffix_cons_iff.mp there
    · obtain ⟨rfl, rfl⟩ := List.cons.inj called
      exact ⟨[], .begins builtIn' frames' rfl⟩
    · obtain innermost | beneath := List.suffix_cons_iff.mp caller
      · obtain ⟨rfl, rfl⟩ := List.cons.inj innermost
        exact ⟨_, reading.again frames stepped (frames' ▸ there) reads same⟩
      · exact waiting beneath
  | givesWay fresh =>
    obtain innermost | beneath := List.suffix_cons_iff.mp there
    · obtain ⟨rfl, rfl⟩ := List.cons.inj innermost
      rw [fresh]
      exact ⟨[], .begins builtIn' frames' fresh⟩
    · exact waiting beneath

theorem Underway.allRead (h : Underway host calling name source start m calls)
    (builtIn : start.overrides = {}) : m.AllRead host calling := by
  induction h with
  | begin told =>
    intro f below there
    have began : Underway host calling name source start _ _ := .begin told
    have whole : f :: below = [Frame.ofText name source] := there.eq_of_length_le (by simp)
    obtain ⟨rfl, rfl⟩ := List.cons.inj whole
    exact ⟨[], .begins (began.overrides.trans builtIn) rfl rfl⟩
  | step underway stepped read =>
    exact read.step (underway.overrides.trans builtIn) stepped underway.running

/-- With the built-in instructions a text is read by its characters alone, whatever is on the stack
and in the registers, and whatever is called on the way. A frame dispatches instructions where
tokens start, in order, and leaves out none but blanks and comments: up to its cursor, up to the
end of the text when it comes there, and otherwise with the instruction at the cursor, be it the
last one to be executed. So does every frame of a run. -/
theorem tokens_dispatched (host : Host) (calling : Calling) (text : Text) (below : List Frame) :
    (∀ m f ps, Reading host calling text below m f ps →
      Token.Covered text f.cursor.index ps ∧
      (f.cursor.peek? = none → Token.Covered text text.length ps) ∧
      ∀ ch, f.cursor.peek? = some ch →
        Token.Covered text (f.cursor.index + 1) (ps ++ [f.cursor.index])) ∧
    ∀ name source start m calls f, start.overrides = {} →
      Underway host calling name source start m calls → f :: below <:+ m.frames →
      f.cursor.text = text → ∃ ps, Reading host calling text below m f ps := by
  constructor
  · intro m f ps reading
    exact ⟨reading.covered, reading.covered_end, fun ch => reading.covered_pending⟩
  · rintro name source start m calls f builtIn underway there rfl
    exact underway.allRead builtIn f below there

/-- In `[5]x #!`, a new line and `3`, the comment is passed over when the macro is called. -/
theorem tokens_dispatched_comment :
    let text := Text.ofString "[5]x #!\n3"
    let f : Frame := { name := [], cursor := ⟨text, 8⟩, position := 3 }
    ∃ m calls, Underway {} .flat [] text {} m calls ∧ (∃ ps, Reading {} .flat text [] m f ps) ∧
      Reading {} .flat text [] m f [0, 3] ∧ Token.Covered text 9 [0, 3, 8] := by
  intro text f
  let frame (index : Nat) : Frame := { name := [], cursor := ⟨text, index⟩ }
  let m : Machine :=
    { leftState (emit {} (.programStart text) ({} : Machine).cleared) with frames := [frame 0] }
  let m₁ := leftState (step {} .flat m)
  let m₂ := leftState (step {} .flat m₁)
  have first : step {} .flat m = .ok none m₁ := rfl
  have second : step {} .flat m₁ = .ok none m₂ := rfl
  have begun : Underway {} .flat [] text {} m [] := .begin rfl
  have called := (begun.step first).step second
  have there : [f] <:+ m₂.frames := List.suffix_cons _ _
  have fresh : Reading {} .flat text [] m (frame 0) [] := .begins rfl rfl rfl
  have pushed : Reading {} .flat text [] m₁ (frame 3) [0] :=
    fresh.dispatches rfl rfl first List.suffix_rfl rfl
  have reading : Reading {} .flat text [] m₂ f [0, 3] :=
    pushed.dispatches rfl rfl second there rfl
  obtain ⟨covered, reads⟩ := tokens_dispatched {} .flat text []
  exact ⟨m₂, _, called, reads _ _ _ _ _ _ rfl called there rfl, reading,
    (covered _ _ _ reading).2.2 _ rfl⟩

end Machine

end DeskCalculator
