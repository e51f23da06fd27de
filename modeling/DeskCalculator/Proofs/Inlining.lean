import DeskCalculator.Proofs.Machine.Continuing

/-!
Macros in place of their calls. A program whose brackets balance can be quoted, and the quoted program,
called at once, does what the program does where it stands: whatever follows cannot tell the two
apart.
-/

namespace DeskCalculator

namespace Literal

/-- No part of the text from its start has more closing brackets than opening ones, and the whole has
as many. -/
structure Balanced (t : Text) : Prop where
  before : ∀ s, s <+: t → s.count (.scalar ']') ≤ s.count (.scalar '[')
  total : t.count (.scalar ']') = t.count (.scalar '[')

variable {t : Text} {depth : Nat}

theorem balanced_iff :
    Balanced t ↔ (∀ k < t.length + 1,
      (t.take k).count (.scalar ']') ≤ (t.take k).count (.scalar '[')) ∧
        t.count (.scalar ']') = t.count (.scalar '[') := by
  constructor
  · intro balanced
    exact ⟨fun k _ => balanced.before _ (List.take_prefix k t), balanced.total⟩
  · rintro ⟨before, total⟩
    refine ⟨fun s h => ?_, total⟩
    rw [List.prefix_iff_eq_take.mp h]
    exact before s.length (Nat.lt_succ_of_le h.length_le)

instance (t : Text) : Decidable (Balanced t) := decidable_of_iff _ balanced_iff.symm

/-- With more closing brackets than are open in it, a text closes one that was open before. -/
theorem closing?_isSome (h : depth + t.count (.scalar '[') < t.count (.scalar ']')) :
    (closing? depth t).isSome := by
  induction t generalizing depth with
  | nil => simp at h
  | cons c t ih =>
    rw [closing?_cons]
    simp only [List.count_cons, beq_iff_eq] at h
    split
    · rename_i opens
      subst opens
      simp only [if_true, CodePoint.scalar.injEq, Char.reduceEq, if_false] at h
      rw [Option.isSome_map]
      exact ih (by omega)
    · rename_i shut
      split
      · rename_i closes
        split
        · rfl
        · rw [Option.isSome_map]
          simp only [closes, if_true, CodePoint.scalar.injEq, Char.reduceEq, if_false] at h
          exact ih (by omega)
      · rename_i plain
        rw [Option.isSome_map]
        simp only [shut, plain, if_false] at h
        exact ih h

/-- What has `depth` brackets more to close than to open, and never more than that, ends just before
the bracket that closes it. -/
theorem closing?_of_before (before : ∀ s, s <+: t →
      s.count (.scalar ']') ≤ depth + s.count (.scalar '['))
    (total : t.count (.scalar ']') = depth + t.count (.scalar '[')) (rest : Text) :
    closing? depth (t ++ .scalar ']' :: rest) = some t.length := by
  induction t generalizing depth with
  | nil =>
    obtain rfl : depth = 0 := by simpa using total.symm
    rfl
  | cons c t ih =>
    have later (s : Text) (h : s <+: t) :
        (c :: s).count (.scalar ']') ≤ depth + (c :: s).count (.scalar '[') :=
      before (c :: s) ((List.prefix_cons_inj c).mpr h)
    simp only [List.count_cons, beq_iff_eq] at later total
    rw [List.cons_append, closing?_cons, List.length_cons]
    split
    · rename_i opens
      subst opens
      simp only [CodePoint.scalar.injEq, Char.reduceEq, if_false, if_true] at later total
      rw [ih (fun s h => by have := later s h; omega) (by omega), Option.map_some]
    · rename_i shut
      split
      · rename_i closes
        subst closes
        simp only [CodePoint.scalar.injEq, Char.reduceEq, if_false, if_true] at later total
        have inner : depth ≠ 0 := by
          have := later [] List.nil_prefix
          simp only [List.count_nil] at this
          omega
        rw [if_neg inner, ih (fun s h => by have := later s h; omega) (by omega), Option.map_some]
      · rename_i plain
        simp only [shut, plain, if_false] at later total
        rw [ih later total, Option.map_some]

/-- A balanced text is what stands between its brackets. -/
theorem Balanced.closing? (balanced : Balanced t) (rest : Text) :
    Literal.closing? 0 (t ++ .scalar ']' :: rest) = some t.length :=
  closing?_of_before (fun s h => by simpa using balanced.before s h)
    (by simpa using balanced.total) rest

/-- Every bracket that a balanced text opens it closes. -/
theorem Balanced.closed {first rest : Text} (balanced : Balanced (first ++ .scalar '[' :: rest)) :
    (Literal.closing? 0 rest).isSome := by
  have before := balanced.before first (List.prefix_append _ _)
  have total := balanced.total
  simp only [List.count_append, List.count_cons, beq_iff_eq, CodePoint.scalar.injEq, Char.reduceEq,
    if_false, if_true] at total
  exact closing?_isSome (by omega)

end Literal

namespace Machine

variable {host : Host} {name inner : Text} {start m n : Machine} {g : Frame} {limit : Nat}
  {signal : Signal}

/-- A string is read from behind its opening bracket and pushed, and the frame goes on behind it. -/
theorem step_string (host : Host) (calling : Calling) (builtIn : n.overrides = {})
    {callers : List Frame} (frames : n.frames = g :: callers)
    (opens : g.cursor.peek? = some (.scalar '[')) :
    let read := (g.cursor.advance 1).string
    ∃ journal, step host calling n = .ok none { n with
      store := { n.store with stack := .text read.1 :: n.store.stack }, journal,
      frames := { g.begin (g.cursor.advance 1) with cursor := read.2 } :: callers } := by
  exact step_asking host calling frames opens (Overrides.find?_builtIn builtIn _) rfl rfl
    fun _ _ _ => rfl

/-- A quoted program that is called at once leaves the store as it was, and is executed in front of
what follows. -/
theorem steps_quoted {rest : Text} (balanced : Literal.Balanced inner) (builtIn : n.overrides = {})
    (frames : n.frames = [g]) (single : g.tailDepth = 1)
    (text : g.cursor.rest =
      .scalar '[' :: (inner ++ .scalar ']' :: .scalar 'x' :: rest)) (name : Text) :
    ∃ journal frames', steps host .flat 2 n = .ok none { n with journal, frames := frames' } ∧
      Leads inner rest [Frame.ofText name inner] frames' := by
  have inside : (g.cursor.advance 1).rest = inner ++ .scalar ']' :: .scalar 'x' :: rest := by
    rw [Cursor.rest_advance, text]
    rfl
  have quoted : (g.cursor.advance 1).string =
      (inner, (g.cursor.advance 1).advance (inner.length + 1)) := by
    simp only [Cursor.string, inside, balanced.closing?, List.take_left]
  let behind : Cursor := (g.cursor.advance 1).advance (inner.length + 1)
  let caller : Frame := { g.begin (g.cursor.advance 1) with cursor := behind, turned := false }
  have calls : behind.rest = .scalar 'x' :: rest := by
    rw [Cursor.rest_advance, inside, List.drop_append, List.drop_of_length_le (by omega)]
    simp
  let quoting : Machine := { n with
    store := { n.store with stack := .text inner :: n.store.stack }, frames := [caller] }
  obtain ⟨journal, first⟩ : ∃ journal, step host .flat n = .ok none { quoting with journal } := by
    obtain ⟨journal, stepped⟩ :=
      step_string host .flat builtIn frames (congrArg List.head? text)
    refine ⟨journal, ?_⟩
    rw [stepped, quoted]
    rfl
  let ready : Frame :=
    { caller.begin (behind.advance 1) with cursor := (behind.advance 1).skipBlank }
  obtain ⟨journal', second⟩ : ∃ journal', step host .flat { quoting with journal } =
      .ok none { n with journal := journal', frames := ready.call .flat inner ++ [] } := by
    have waits : ({ quoting with journal } : Machine).frames = [caller] := rfl
    exact step_asking host .flat waits (congrArg List.head? calls)
      (Overrides.find?_builtIn builtIn _) rfl rfl fun _ _ _ => rfl
  refine ⟨journal', ready.call .flat inner ++ [], ?_, ?_⟩
  · rw [steps_succ first, steps_one, second]
  · have left : ready.cursor.rest = Literal.trimmed rest := by
      rw [Cursor.rest_skipBlank, Cursor.rest_advance, calls]
      rfl
    rw [List.append_nil]
    exact leads_call inner rfl rfl left rfl single

theorem closed_of_balanced (balanced : Literal.Balanced inner) (m : Machine) : m.Closed inner := by
  intro frame _ _ text bracket
  obtain ⟨t, rest⟩ := List.head?_eq_some_iff.mp bracket
  have split : inner = inner.take frame.cursor.index ++ .scalar '[' :: t := by
    rw [← rest, Cursor.rest, text, List.take_append_drop]
  rw [Cursor.rest_advance, rest, List.drop_one, List.tail_cons]
  exact Literal.Balanced.closed (split ▸ balanced)

/-- A text that quotes a program and calls it continues with what follows as the program has
returned. -/
theorem continues_quoted {more : Text} (obliging : host.Obliging)
    (onNewLine : Literal.OnNewLine more) (builtIn : start.overrides = {})
    (balanced : Literal.Balanced inner) (quitless : Quitless host name inner start)
    (returned : run host .flat limit name inner start = some (.ok signal, m)) (name' : Text) :
    Continues host name' (.scalar '[' :: (inner ++ .scalar ']' :: .scalar 'x' :: more)) start more
      m := by
  let whole : Text := .scalar '[' :: (inner ++ .scalar ']' :: .scalar 'x' :: more)
  obtain ⟨history, told, unseen⟩ := silent_emit obliging (.programStart whole) start.cleared
  obtain ⟨journal, frames, called, leads⟩ :=
    steps_quoted (n := { start.cleared with history, frames := [Frame.ofText name' whole] })
      balanced builtIn rfl rfl rfl name
  have matching : Matching (· = ·) start.cleared { start.cleared with history, journal, frames } :=
    { store := rfl, builtIn, builtIn' := builtIn, outputs := unseen.symm }
  obtain ⟨i, n, g, walked, here, ready, reached⟩ :=
    comes_to_more obliging onNewLine (fun m _ _ => closed_of_balanced balanced m) quitless matching
      leads builtIn returned
  refine ⟨_, 2 + i, n, g, told, ?_, here, ready, reached⟩
  rw [steps_add called, walked]

/-- A program whose brackets balance, and which returns without having come to a quit, may be written
as a macro that is called at once: with anything behind it on lines of its own, the text returns the
same signal or fails for the same cause, with the same store and the same outputs, or it does not end
either way. -/
theorem inlined (name' name'' rest : Text) (obliging : host.Obliging)
    (builtIn : start.overrides = {}) (balanced : Literal.Balanced inner)
    (returned : run host .flat limit name inner start = some (.ok .okay, m))
    (quitless : Quitless host name inner start) (o : Except RunFailure Signal × Store × History) :
    (∃ limit, summary (run host .flat limit name'
        (.scalar '[' :: (inner ++ .scalar ']' :: .scalar 'x' :: .scalar '\n' :: rest)) start) =
          some o) ↔
      ∃ limit, summary (run host .flat limit name'' (inner ++ .scalar '\n' :: rest) start) =
        some o := by
  have closed : ∀ m calls, Underway host .flat name inner start m calls → m.Closed inner :=
    fun m _ _ => closed_of_balanced balanced m
  have called := continues_quoted obliging (.line rest) builtIn balanced quitless returned name'
  have plain := continues_behind obliging (.line rest) builtIn closed quitless returned name''
  exact called.outcomes obliging plain o

/-- In front of `+`, which fails for want of numbers, `[1p]x` may be called as a macro. -/
theorem inlined_failure :
    let inner := Text.ofString "[1p]x"
    let rest := Text.ofString "+"
    Literal.Balanced inner ∧ ∃ o,
      summary (run {} .flat 20 [] (inner ++ .scalar '\n' :: rest) {}) = some o ∧
      o.1.toOption = none ∧ o.2.2 = [.wrote (Text.ofString "1\n")] ∧
      ∃ limit, summary (run {} .flat limit []
        (.scalar '[' :: (inner ++ .scalar ']' :: .scalar 'x' :: .scalar '\n' :: rest)) {}) =
          some o := by
  intro inner rest
  have balanced : Literal.Balanced inner := by decide +kernel
  have unquit : ∀ i < 5, (leftState (stepsOf {} .flat [] inner {} i)).pending? ≠
      some (.scalar 'q') ∧
        (leftState (stepsOf {} .flat [] inner {} i)).pending? ≠ some (.scalar 'Q') := by
    decide +kernel
  have quitless : Quitless {} [] inner {} := by
    intro m calls underway
    obtain ⟨i, lt, rfl⟩ := underway.before (i := 5) (by decide +kernel)
    exact unquit i lt
  have returns : (run {} .flat 9 [] inner {}).map (·.1.toOption) = some (some .okay) := by
    decide +kernel
  have fails : (summary (run {} .flat 20 [] (inner ++ .scalar '\n' :: rest) {})).map
      (fun o => (o.1.toOption, o.2.2)) = some (none, [.wrote (Text.ofString "1\n")]) := by
    decide +kernel
  obtain ⟨⟨result, m⟩, ran, succeeds⟩ := Option.map_eq_some_iff.mp returns
  obtain ⟨o, ended, outcome⟩ := Option.map_eq_some_iff.mp fails
  obtain ⟨failed, outputs⟩ := Prod.mk.inj outcome
  cases result with
  | error => cases succeeds
  | ok signal =>
    obtain rfl : signal = .okay := Option.some.inj succeeds
    have same := inlined [] [] rest Host.obliging_default rfl balanced ran quitless o
    exact ⟨balanced, o, ended, failed, outputs, same.mpr ⟨20, ended⟩⟩

end Machine

end DeskCalculator
