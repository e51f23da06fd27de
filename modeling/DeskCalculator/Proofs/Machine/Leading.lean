import DeskCalculator.Proofs.Machine.Abreast
import DeskCalculator.Proofs.Blanks

/-!
A program that leads into more. A machine that executes the program alone is followed by one that has
more to execute behind it: because the text goes on, or because the program is a macro whose caller
waits. As long as no quit counts frames, the two take the same steps, up to the end of the program;
then the second one comes to where the text goes on.
-/

namespace DeskCalculator

open Literal (OnNewLine)

namespace Frame

theorem call_of_end {f : Frame} (ended : f.cursor.rest = []) (text : Text) :
    f.call .flat text =
      [{ f with cursor := ⟨text, 0⟩, position := 0, tailDepth := f.tailDepth + 1 }] :=
  if_pos ⟨rfl, Cursor.atEnd_iff.mpr ended⟩

theorem call_of_left {f : Frame} (left : f.cursor.rest ≠ []) (text : Text) :
    f.call .flat text = [ofText macroName text, f] :=
  if_neg fun takes => left (Cursor.atEnd_iff.mp takes.2)

/-- The same is left to execute, and what comes next is executed alike. The frames need not end the
same levels. -/
structure InStep (f g : Frame) : Prop where
  rest : g.cursor.rest = f.cursor.rest
  turned : g.turned = f.turned

/-- A frame that goes on with `more`, behind the blanks and comments that `more` starts with. -/
structure Ready (more : Text) (f : Frame) : Prop where
  rest : f.cursor.rest = Literal.trimmed more
  turned : f.cursor.rest ≠ [] → f.turned = false
  single : f.cursor.rest ≠ [] → f.tailDepth = 1

theorem Ready.alike {more : Text} {f g : Frame} (hf : f.Ready more) (hg : g.Ready more) :
    f.Alike g := by
  have rest : g.cursor.rest = f.cursor.rest := hg.rest.trans hf.rest.symm
  refine ⟨rest, fun left => ?_, fun left => ?_⟩
  · rw [hf.turned left, hg.turned (rest ▸ left)]
  · rw [hf.single left, hg.single (rest ▸ left)]

end Frame

/-- The frames of a machine that executes the program `source` alone, and those of one that has
`more` to execute behind it. -/
inductive Leads (source more : Text) : List Frame → List Frame → Prop where
  /-- The program has gone, and nothing was left behind it. -/
  | done (blank : Literal.trimmed more = []) : Leads source more [] []
  | waiting {top : Frame} (ready : top.Ready more) : Leads source more [] [top]
  /-- The program itself is executed, in a text that goes on. -/
  | within {f g : Frame} (text : f.cursor.text = source) (single : f.tailDepth = 1)
      (single' : g.tailDepth = 1) (joined : f.cursor.Joined more g.cursor)
      (turned : g.turned = f.turned) (turns : f.turned → f.cursor.rest ≠ []) :
      Leads source more [f] [g]
  | cons {f g : Frame} {fs gs : List Frame} (inStep : f.InStep g) (leads : Leads source more fs gs) :
      Leads source more (f :: fs) (g :: gs)

namespace Machine

variable {host : Host} {source more : Text} {m m' n : Machine} {f g : Frame} {fs gs : List Frame}
  {move move' : Move}

/-- Frames that are alike take what the instruction asks of them alike. -/
theorem follow_inStep (turned : g.turned = f.turned) (asked : Move.Joined [] move move')
    (moves : move ≠ .quit) (leads : Leads source more fs gs) (m n : Machine) :
    ∃ fs' gs', follow .flat f fs move m = .ok none { m with frames := fs' } ∧
      follow .flat g gs move' n = .ok none { n with frames := gs' } ∧
      Leads source more fs' gs' := by
  cases asked with
  | goOn joined =>
    have rests := Literal.joined_nil.mp joined
    exact ⟨_, _, rfl, rfl, .cons ⟨rests, rfl⟩ leads⟩
  | @call text cursor cursor' behind =>
    have rests := Literal.joined_nil.mp behind.joined
    have ends : cursor'.atEnd = cursor.atEnd := congrArg List.isEmpty rests
    refine ⟨_, _, rfl, rfl, ?_⟩
    simp only [Frame.call, ends]
    split
    · exact .cons ⟨rfl, turned⟩ leads
    · exact .cons ⟨rfl, rfl⟩ (.cons ⟨rests, turned⟩ leads)
  | quit => exact absurd rfl moves

/-- A callee takes over a caller that has only blanks and comments of `more` left, or is executed in
front of it. -/
theorem leads_call (text : Text) (rest : f.cursor.rest = text) (unturned : f.turned = false)
    (rest' : g.cursor.rest = Literal.trimmed more) (unturned' : g.turned = false)
    (single : g.tailDepth = 1) : Leads source more [f] (g.call .flat text) := by
  by_cases blank : Literal.trimmed more = []
  · rw [Frame.call_of_end (rest'.trans blank)]
    exact .cons ⟨rest.symm, unturned'.trans unturned.symm⟩ (.done blank)
  · have left : g.cursor.rest ≠ [] := fun ended => blank (rest'.symm.trans ended)
    rw [Frame.call_of_left left]
    exact .cons ⟨rest.symm, unturned.symm⟩ (.waiting ⟨rest', fun _ => unturned', fun _ => single⟩)

/-- A call that is the last thing in the program may have something behind it in the text that goes
on. -/
theorem follow_within (single : f.tailDepth = 1) (single' : g.tailDepth = 1)
    (unturned : f.turned = false) (unturned' : g.turned = false)
    (asked : Move.Joined more move move') (stays : move.StaysIn source) (moves : move ≠ .quit)
    (m n : Machine) :
    ∃ fs' gs', follow .flat f [] move m = .ok none { m with frames := fs' } ∧
      follow .flat g [] move' n = .ok none { n with frames := gs' } ∧
      Leads source more fs' gs' := by
  cases asked with
  | goOn joined turns => exact ⟨_, _, rfl, rfl, .within stays single single' joined rfl turns⟩
  | @call text cursor cursor' behind =>
    have rest' : cursor'.rest = if cursor.rest = [] then _ else _ := behind
    let caller : Frame := { f with cursor }
    let caller' : Frame := { g with cursor := cursor' }
    refine ⟨caller.call .flat text ++ [], caller'.call .flat text ++ [], rfl, rfl, ?_⟩
    rw [List.append_nil, List.append_nil]
    by_cases ended : caller.cursor.rest = []
    · rw [if_pos ended] at rest'
      rw [Frame.call_of_end ended]
      exact leads_call text rfl unturned rest' unturned' single'
    · rw [if_neg ended] at rest'
      have left' : caller'.cursor.rest ≠ [] := by
        intro ended'
        exact ended (List.append_eq_nil_iff.mp (rest'.symm.trans ended')).1
      rw [Frame.call_of_left ended, Frame.call_of_left left']
      refine .cons ⟨rfl, rfl⟩ (.within stays single single' behind.joined ?_ ?_)
      · exact unturned'.trans unturned.symm
      · exact fun _ => ended
  | quit => exact absurd rfl moves

/-- An instruction that does not fail is executed alike in a text that goes on with `next`, and the
frames take it alike if they take alike what it asks of them. -/
theorem execute_leads (obliging : host.Obliging) {next : Text} (onNewLine : OnNewLine next)
    {ch : CodePoint} {t : Text} (frames : m.frames = f :: fs) (frames' : n.frames = g :: gs)
    (rest : f.cursor.rest = ch :: t) (rests : g.cursor.rest = f.cursor.rest ++ next)
    (turned : g.turned = f.turned)
    (closed : ch = .scalar '[' → next = [] ∨ (Literal.closing? 0 t).isSome)
    (quitless : m.quits? = none) (matching : Matching (· = ·) m n)
    (follows : ∀ {move move' : Move}, Move.Joined next move move' → move.StaysIn f.cursor.text →
      move ≠ .quit → ∀ m₁ n₁, ∃ fs' gs',
        follow .flat (f.begin (f.cursor.advance 1)) fs move m₁ =
          .ok none { m₁ with frames := fs' } ∧
        follow .flat (g.begin (g.cursor.advance 1)) gs move' n₁ =
          .ok none { n₁ with frames := gs' } ∧ Leads source more fs' gs')
    (stepped : step host .flat m = .ok none m') :
    ∃ n', step host .flat n = .ok none n' ∧ Matching (· = ·) m' n' ∧
      Leads source more m'.frames n'.frames := by
  -- What becomes of an instruction that fails does not matter: this one does not.
  have sameness : Store.Sameness (fun _ => True) (· = ·) := Store.sameness_eq fun _ _ => trivial
  have pending : f.cursor.peek? = some ch := congrArg List.head? rest
  have pending' : g.cursor.peek? = some ch := by
    rw [Cursor.peek?, rests, rest]
    rfl
  obtain ⟨-, move, m₁, executed, moves, followed⟩ :=
    step_quitless matching.builtIn quitless frames pending stepped
  have matched := follows_execute sameness onNewLine obliging fs gs rest rests turned closed
    (Overrides.follows_append onNewLine t [ch] f.turned) m n matching
  rw [executed] at matched
  obtain ⟨move', n₁, executed', asked, matching'⟩ := matched.of_ok
  have stays := staysIn_execute (f.cursor.advance 1) f fs m move m₁ executed
  obtain ⟨fs', gs', left, left', leads⟩ := follows asked stays moves m₁ n₁
  obtain ⟨-, rfl⟩ := EStateM.Result.ok.inj (followed.symm.trans left)
  refine ⟨{ n₁ with frames := gs' }, ?_, { matching' with }, leads⟩
  rw [step_of_pending frames' pending', bind_ok executed', left']

/-- Every string of a program that the machine stands at is closed. -/
def Closed (source : Text) (m : Machine) : Prop :=
  ∀ frame, m.frames = [frame] → frame.tailDepth = 1 → frame.cursor.text = source →
    frame.cursor.peek? = some (.scalar '[') →
      (Literal.closing? 0 (frame.cursor.advance 1).rest).isSome

/-- Every step of the program is taken in front of more, too. -/
theorem step_leads (obliging : host.Obliging) (onNewLine : OnNewLine more)
    (closed : m.Closed source) (quitless : m.quits? = none) (matching : Matching (· = ·) m n)
    (leads : Leads source more m.frames n.frames) (running : m.frames ≠ [])
    (stepped : step host .flat m = .ok none m') :
    ∃ n', step host .flat n = .ok none n' ∧ Matching (· = ·) m' n' ∧
      Leads source more m'.frames n'.frames := by
  generalize frames : m.frames = ms at leads
  generalize frames' : n.frames = ns at leads
  -- The two machines stand in the program and in the text that goes on, or in the same macro.
  cases leads with
  | done | waiting => exact absurd frames running
  | @within f g text single single' joined turned turns =>
    cases rest : f.cursor.rest with
    | nil =>
      rw [step_of_end frames (congrArg List.head? rest)] at stepped
      cases stepped
    | cons ch t =>
      have pending : f.cursor.peek? = some ch := congrArg List.head? rest
      have behind : (f.cursor.advance 1).rest = t := by
        rw [Cursor.rest_advance, rest, List.drop_one, List.tail_cons]
      have rests := Literal.Joined.append joined (by simp [rest])
      refine execute_leads obliging onNewLine frames frames' rest rests turned ?_ quitless matching ?_
        stepped
      · rintro rfl
        exact .inr (behind ▸ closed f frames single text pending)
      · intro move move' asked stays moves m₁ n₁
        exact follow_within (f := f.begin (f.cursor.advance 1)) (g := g.begin (g.cursor.advance 1))
          single single' rfl rfl asked (text ▸ stays) moves m₁ n₁
  | @cons f g fs gs inStep leads =>
    cases rest : f.cursor.rest with
    | nil =>
      have ended' : g.cursor.peek? = none := congrArg List.head? (inStep.rest.trans rest)
      rw [step_of_end frames (congrArg List.head? rest)] at stepped
      obtain ⟨going, rfl⟩ := EStateM.Result.ok.inj stepped
      have going' : over? .okay gs = none := by
        cases leads with
        | done | waiting => cases going
        | within | cons => rfl
      refine ⟨{ n with frames := gs }, ?_, { matching with }, leads⟩
      rw [step_of_end frames' ended', going']
    | cons ch t =>
      have rests : g.cursor.rest = f.cursor.rest ++ [] := by rw [inStep.rest, List.append_nil]
      refine execute_leads obliging .nothing frames frames' rest rests inStep.turned (fun _ => .inl rfl)
        quitless matching ?_ stepped
      intro move move' asked stays moves m₁ n₁
      exact follow_inStep (f := f.begin (f.cursor.advance 1)) (g := g.begin (g.cursor.advance 1)) rfl
        asked moves leads m₁ n₁

/-- A machine with one frame comes to have `t` left in it, and only its journal has changed. -/
def ComesTo (host : Host) (t : Text) (depth : Nat) (n : Machine) : Prop :=
  ∃ i journal g, steps host .flat i n = .ok none { n with journal, frames := [g] } ∧
    g.cursor.rest = t ∧ g.turned = false ∧ g.tailDepth = depth

/-- The blanks and comments in front of a text are passed. -/
theorem comes_trimmed (builtIn : n.overrides = {}) (frames : n.frames = [g])
    (unturned : g.turned = false) :
    ComesTo host (Literal.trimmed g.cursor.rest) g.tailDepth n := by
  have spared : n.overrides.SpareSpacing := fun _ _ => Overrides.find?_builtIn builtIn _
  obtain ⟨i, journal, position, turned, walked, turns⟩ := steps_skipBlank host .flat spared frames
  have unturned' : turned = false := by
    rw [unturned] at turns
    exact Bool.eq_false_of_not_eq_true fun turned => absurd (turns turned) nofun
  exact ⟨i, journal, _, walked, Cursor.rest_skipBlank _, unturned', rfl⟩

end Machine

end DeskCalculator
