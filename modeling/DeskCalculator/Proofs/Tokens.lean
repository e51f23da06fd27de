import DeskCalculator.Proofs.Cursor
import DeskCalculator.Proofs.Machine.Execute

/-!
The tokens of a text, told by its characters alone. A numeral, a string, a comment and a command
take all the characters that belong to them, an instruction that needs a name takes one more, and
every other character is a token of its own. Wherever a cursor is moved on in the text by an
instruction, it comes to the start of a token, and passes none but this one and those of blanks and
comments.
-/

namespace DeskCalculator

namespace Token

/-- `0` to `9`, `A` to `F` and the decimal point. -/
def inNumeral : CodePoint → Bool
  | .scalar c => ('0' ≤ c ∧ c ≤ '9') ∨ ('A' ≤ c ∧ c ≤ 'F') ∨ c = '.'
  | .surrogate _ => false

/-- Only the first character of a numeral may be an underscore. -/
def beginsNumeral (c : CodePoint) : Bool := inNumeral c || c = .scalar '_'

/-- Whether more brackets are closed than opened up to the position `k` and on it. -/
def closes (t : Text) (k : Nat) : Bool :=
  (t.take (k + 1)).count (.scalar '[') < (t.take (k + 1)).count (.scalar ']')

/-- How far a string goes on behind its opening bracket: through the one that closes it, or to the
end. -/
def stringLength (t : Text) : Nat :=
  (((List.range t.length).find? (closes t)).map (· + 1)).getD t.length

/-- How far a line goes on: through its newline, or to the end. -/
def lineLength (t : Text) : Nat := min ((Text.firstLine t).length + 1) t.length

def comparisons : Text := Text.ofString "<=>"

/-- The characters that are followed by a name. -/
def naming : Text := ['l', 's', 'S', 'L', ':', ';', '<', '=', '>']

/-- How many characters of `rest` belong to the token that `c` begins in front of it. -/
def further (c : CodePoint) (rest : Text) : Nat :=
  if beginsNumeral c then (rest.takeWhile inNumeral).length
  else if c = .scalar '[' then stringLength rest
  else if c = .scalar '#' then lineLength rest
  else if c = .scalar '!' then
    if rest.head?.any (comparisons.contains ·) then 0 else lineLength rest
  else if c ∈ naming then 1
  else 0

/-- Where tokens start in a text that stands at `position`, behind `skip` characters that belong to
a token already begun. -/
def startsFrom (position skip : Nat) : Text → List Nat
  | [] => []
  | c :: rest =>
    match skip with
    | 0 => position :: startsFrom (position + 1) (further c rest) rest
    | skip + 1 => startsFrom (position + 1) skip rest

/-- Where the tokens of a text start. -/
def starts (text : Text) : List Nat := startsFrom 0 0 text

/-- A literal is one token, whatever it holds, and so is a name with what asks for it. -/
example : starts (Text.ofString "_1.5[p[q]]sa!<b!p") = [0, 4, 10, 12, 13, 15] := by decide +kernel

/-- Whether there is something else but a blank or a comment at a position. -/
def Visible (text : Text) (i : Nat) : Prop :=
  ∃ c, text[i]? = some c ∧ c ≠ .scalar '#' ∧ Literal.isBlank c = false

/-- Positions that are starts of tokens, in order, so that none is left out in front of the position
`n` but those of blanks and comments. -/
structure Covered (text : Text) (n : Nat) (ps : List Nat) : Prop where
  inOrder : ps.Sublist (starts text)
  complete : ∀ i ∈ starts text, i < n → Visible text i → i ∈ ps

variable {text t : Text} {c : CodePoint} {i position skip : Nat}

theorem startsFrom_skip (position skip : Nat) (t : Text) :
    startsFrom position skip t = startsFrom (position + skip) 0 (t.drop skip) := by
  induction t generalizing position skip with
  | nil => simp [startsFrom]
  | cons c rest ih =>
    cases skip with
    | zero => rfl
    | succ skip =>
      rw [startsFrom, ih, List.drop_succ_cons]
      congr 1
      omega

theorem le_of_mem_startsFrom (h : i ∈ startsFrom position skip t) : position ≤ i := by
  induction t generalizing position skip with
  | nil => cases h
  | cons c rest ih =>
    cases skip with
    | zero =>
      obtain rfl | later := List.mem_cons.mp h
      · exact Nat.le_refl _
      · exact Nat.le_of_succ_le (ih later)
    | succ skip => exact Nat.le_of_succ_le (ih h)

theorem inNumeral_eq (c : CodePoint) : Literal.isNumeralBody c = inNumeral c := by
  cases c with
  | surrogate => rfl
  | scalar c =>
    unfold Literal.isNumeralBody Numeral.digit? inNumeral
    by_cases digit : '0' ≤ c ∧ c ≤ '9'
    · simp [digit]
    · by_cases letter : 'A' ≤ c ∧ c ≤ 'F'
      · simp [digit, letter]
      · by_cases point : c = '.' <;> simp [digit, letter, point]

/-- A string ends where more brackets have been closed than opened, `depth` more at the start. -/
theorem closing?_eq (depth : Nat) (t : Text) :
    Literal.closing? depth t = (List.range t.length).find? fun k =>
      depth + (t.take (k + 1)).count (.scalar '[') < (t.take (k + 1)).count (.scalar ']') := by
  induction t generalizing depth with
  | nil => rfl
  | cons c rest ih =>
    rw [Literal.closing?_cons, List.length_cons, List.range_succ_eq_map, List.find?_cons,
      List.find?_map]
    simp only [ih, List.take_succ_cons, List.take_zero, List.count_cons, List.count_nil, beq_iff_eq,
      Function.comp_def, Nat.zero_add, Nat.succ_eq_add_one]
    split
    · rename_i opens
      subst opens
      simp [Nat.add_assoc, Nat.add_comm 1]
    · rename_i shut
      split
      · rename_i closes
        subst closes
        cases depth with
        | zero => simp
        | succ depth =>
          have less (opened closed : Nat) :
              depth + 1 + opened < closed + 1 ↔ depth + opened < closed := by omega
          simp [less]
      · simp

theorem closing?_zero (t : Text) :
    Literal.closing? 0 t = (List.range t.length).find? (closes t) := by
  rw [closing?_eq]
  simp only [Nat.zero_add]
  rfl

/-- A numeral is read as far as it goes on. -/
theorem length_numeralRun (begins : beginsNumeral c) (rest : Text) :
    (Literal.numeralRun (c :: rest)).length = 1 + (rest.takeWhile inNumeral).length := by
  have same : Literal.isNumeralBody = inNumeral := funext inNumeral_eq
  unfold Literal.numeralRun
  rw [same]
  split
  · rename_i rest' signed
    obtain ⟨-, rfl⟩ := List.cons.inj signed
    rw [List.length_cons, Nat.add_comm]
  · rename_i unsigned
    have body : inNumeral c := by
      obtain body | sign := Bool.or_eq_true_iff.mp begins
      · exact body
      · exact absurd (congrArg (· :: rest) (of_decide_eq_true sign)) (unsigned rest)
    rw [List.takeWhile_cons_of_pos body, List.length_cons, Nat.add_comm]

/-- How many characters of `rest` belong to an instruction in front of it. -/
def furtherOf (i : Instruction) (rest : Text) : Nat :=
  match i with
  | .numeral => (rest.takeWhile inNumeral).length
  | .string => stringLength rest
  | .comment => lineLength rest
  | .bang => if rest.head?.any (comparisons.contains ·) then 0 else lineLength rest
  | i => if i.needsName then 1 else 0

/-- A character that begins nothing longer stands alone. -/
theorem further_alone {c : Char} (noNumeral : beginsNumeral c = false)
    (noLiteral : c ≠ '[' ∧ c ≠ '#' ∧ c ≠ '!') (noName : .scalar c ∉ naming)
    (rest : Text) : further c rest = 0 := by
  obtain ⟨noString, noComment, noCommand⟩ := noLiteral
  simp [further, noNumeral, noString, noComment, noCommand, noName]

theorem beginsNumeral_eq_false {c : Char} (noDigit : ¬ (('0' ≤ c ∧ c ≤ '9') ∨ ('A' ≤ c ∧ c ≤ 'F')))
    (noPoint : c ≠ '.') (noSign : c ≠ '_') : beginsNumeral c = false := by
  obtain ⟨noDecimal, noLetter⟩ := not_or.mp noDigit
  simp [beginsNumeral, inNumeral, noDecimal, noLetter, noPoint, noSign]

theorem beginsNumeral_of_digit {c : Char}
    (digit : ('0' ≤ c ∧ c ≤ '9') ∨ ('A' ≤ c ∧ c ≤ 'F')) : beginsNumeral c = true := by
  obtain decimal | letter := digit
  · simp [beginsNumeral, inNumeral, decimal]
  · simp [beginsNumeral, inNumeral, letter]

theorem beginsNumeral_of_numeral (h : Instruction.ofName [c] = .numeral) :
    beginsNumeral c = true := by
  cases c with
  | surrogate => cases h
  | scalar c =>
    change Instruction.ofChar c = .numeral at h
    revert h
    unfold Instruction.ofChar
    split
    all_goals intro h
    all_goals first | (cases h; done) | rfl | skip
    split at h
    · rename_i digit
      exact beginsNumeral_of_digit digit
    · cases h

/-- The tokens are those of the instructions. -/
theorem further_eq (c : CodePoint) (rest : Text) :
    further c rest = furtherOf (Instruction.ofName [c]) rest := by
  cases c with
  | surrogate => rfl
  | scalar c =>
    change further (.scalar c) rest = furtherOf (Instruction.ofChar c) rest
    unfold Instruction.ofChar
    split
    -- Only the last case is no single character: the digits, and what has no meaning.
    all_goals try rfl
    split
    · rename_i digit
      rw [further, if_pos (beginsNumeral_of_digit digit)]
      rfl
    · rename_i noDigit
      have noName : .scalar c ∉ naming := by
        simp only [naming, List.mem_cons, CodePoint.scalar.injEq, not_or]
        exact ⟨‹_›, ‹_›, ‹_›, ‹_›, ‹_›, ‹_›, ‹_›, ‹_›, ‹_›, List.not_mem_nil⟩
      exact further_alone (beginsNumeral_eq_false noDigit ‹_› ‹_›) ⟨‹_›, ‹_›, ‹_›⟩ noName rest

theorem lineLength_cons (c : CodePoint) (t : Text) :
    lineLength (c :: t) = if Text.isNewline c then 1 else lineLength t + 1 := by
  cases newline : Text.isNewline c <;> simp [lineLength, Text.firstLine, newline]

theorem further_blank (blank : Literal.isBlank c) (rest : Text) : further c rest = 0 := by
  simp only [Literal.isBlank, Bool.or_eq_true, beq_iff_eq] at blank
  obtain (rfl | rfl) | rfl := blank <;> rfl

theorem hidden_of_head {i : Nat} (stands : text.drop i = c :: t)
    (hidden : c = .scalar '#' ∨ Literal.isBlank c = true) : ¬ Visible text i := by
  rintro ⟨c', found, noComment, noBlank⟩
  have first : (text.drop i).head? = some c' := List.head?_drop.trans found
  rw [stands] at first
  obtain rfl := Option.some.inj first
  obtain comment | blank := hidden
  · exact noComment comment
  · simp [blank] at noBlank

/-- No visible token starts in the first `n` characters of a text that stands at `position` in
`text`, behind `skip` characters that belong to a token already begun. Behind them one may start. -/
def Hides (text : Text) (position skip : Nat) (t : Text) (n : Nat) : Prop :=
  ∃ passed, startsFrom position skip t = passed ++ startsFrom (position + n) 0 (t.drop n) ∧
    ∀ i ∈ passed, ¬ Visible text i

theorem hides_none (text : Text) (position : Nat) (t : Text) : Hides text position 0 t 0 :=
  ⟨[], rfl, List.forall_mem_nil _⟩

theorem Hides.cons {first : List Nat} {skip' n : Nat} (h : Hides text (position + 1) skip' t n)
    (begins : startsFrom position skip (c :: t) = first ++ startsFrom (position + 1) skip' t)
    (hidden : ∀ i ∈ first, ¬ Visible text i) : Hides text position skip (c :: t) (n + 1) := by
  obtain ⟨passed, tokens, hidden'⟩ := h
  refine ⟨first ++ passed, ?_, List.forall_mem_append.mpr ⟨hidden, hidden'⟩⟩
  rw [begins, tokens, List.drop_succ_cons, List.append_assoc, Nat.add_assoc, Nat.add_comm 1]

/-- The blanks and comments in front of a text are tokens, and none of them is visible. In a comment
that has begun there is no token up to the end of the line. -/
theorem hides_blanks (comment : Bool) (stands : text.drop position = t) :
    Hides text position (if comment then lineLength t else 0) t
      (Literal.blankLength comment t) := by
  induction t generalizing position comment with
  | nil => exact ⟨[], by simp [startsFrom], List.forall_mem_nil _⟩
  | cons c rest ih =>
    have next : text.drop (position + 1) = rest := by
      rw [← List.drop_drop, stands]
      rfl
    cases comment with
    | true =>
      have begins : startsFrom position (lineLength (c :: rest)) (c :: rest) = [] ++
          startsFrom (position + 1) (if !Text.isNewline c then lineLength rest else 0) rest := by
        rw [lineLength_cons]
        cases Text.isNewline c <;> rfl
      exact (ih (!Text.isNewline c) next).cons begins (List.forall_mem_nil _)
    | false =>
      by_cases comment : c = .scalar '#'
      · subst comment
        have hidden := hidden_of_head stands (.inl rfl)
        exact (ih true next).cons rfl (List.forall_mem_singleton.mpr hidden)
      · by_cases blank : Literal.isBlank c = true
        · have one : Literal.blankLength false (c :: rest) =
              Literal.blankLength false rest + 1 := by
            simp [Literal.blankLength, comment, blank]
          have begins : startsFrom position 0 (c :: rest) =
              [position] ++ startsFrom (position + 1) 0 rest := by
            simp [startsFrom, further_blank blank]
          have hidden := hidden_of_head stands (.inr blank)
          rw [one]
          exact (ih false next).cons begins (List.forall_mem_singleton.mpr hidden)
        · have none : Literal.blankLength false (c :: rest) = 0 := by
            simp [Literal.blankLength, comment, blank]
          rw [none]
          exact hides_none _ _ _

end Token

namespace Cursor

variable {c c' : Cursor} {ch : CodePoint} {rest : Text} {ps : List Nat}

/-- Where tokens start from the cursor on. -/
def tokens (c : Cursor) : List Nat := Token.startsFrom c.index 0 c.rest

theorem tokens_of_end (h : c.rest = []) : c.tokens = [] := by
  rw [tokens, h]
  rfl

/-- The token at the cursor, and those behind it. -/
theorem tokens_of_pending (h : c.rest = ch :: rest) :
    c.tokens = c.index :: (c.advance (1 + Token.further ch rest)).tokens := by
  rw [tokens, tokens, rest_advance, h, Nat.add_comm 1, List.drop_succ_cons, Token.startsFrom,
    Token.startsFrom_skip]
  congr 2
  exact Nat.add_right_comm _ _ _

/-- A cursor that is further on in the text, behind nothing but blanks and comments. -/
def Reaches (c c' : Cursor) : Prop :=
  c'.text = c.text ∧ ∃ passed, c.tokens = passed ++ c'.tokens ∧
    ∀ i ∈ passed, ¬ Token.Visible c.text i

theorem Reaches.of_tokens (inText : c'.text = c.text) (same : c.tokens = c'.tokens) :
    c.Reaches c' :=
  ⟨inText, [], same, List.forall_mem_nil _⟩

theorem Reaches.refl (c : Cursor) : c.Reaches c := .of_tokens rfl rfl

theorem Reaches.skipBlank (h : c.Reaches c') : c.Reaches c'.skipBlank := by
  obtain ⟨inText, passed, same, hidden⟩ := h
  obtain ⟨blanks, same', hidden'⟩ := Token.hides_blanks false (rfl : _ = c'.rest)
  refine ⟨inText, passed ++ blanks, ?_, List.forall_mem_append.mpr ⟨hidden, inText ▸ hidden'⟩⟩
  rw [same, List.append_assoc, tokens, tokens, rest_skipBlank]
  exact congrArg _ same'

theorem reaches_line (c : Cursor) : (c.advance (Token.lineLength c.rest)).Reaches c.line.2 := by
  refine .of_tokens (text_line c) ?_
  unfold line
  dsimp only
  split
  · rename_i within
    rw [Token.lineLength, Nat.min_eq_left within]
  · rename_i last
    have all : c.rest.length ≤ Token.lineLength c.rest := by
      unfold Token.lineLength
      omega
    rw [tokens_of_end (rest_toEnd c), tokens_of_end]
    rw [rest_advance, List.drop_of_length_le all]

theorem reaches_string (c : Cursor) :
    (c.advance (Token.stringLength c.rest)).Reaches c.string.2 := by
  refine .of_tokens (text_string c) ?_
  unfold string Token.stringLength
  rw [← Token.closing?_zero]
  cases Literal.closing? 0 c.rest with
  | some k => rfl
  | none =>
    rw [tokens_of_end (rest_toEnd c), tokens_of_end]
    rw [rest_advance]
    exact List.drop_length

theorem reaches_numeral (base : Int) (h : c.rest = ch :: rest) (begins : Token.beginsNumeral ch) :
    (c.advance (1 + (rest.takeWhile Token.inNumeral).length)).Reaches (c.numeral base).2 := by
  have within : c.index ≤ c.text.length := index_le_of_peek? (congrArg List.head? h)
  have run : (Literal.numeralRun c.rest).length = 1 + (rest.takeWhile Token.inNumeral).length := by
    rw [h, Token.length_numeralRun begins]
  refine .of_tokens rfl ?_
  unfold numeral
  dsimp only
  rw [run, Nat.min_eq_left within]
  rfl

/-- The tokens that a cursor has passed, `ps` and those of blanks and comments. -/
def Passed (c : Cursor) (ps : List Nat) : Prop :=
  ∃ passed, Token.starts c.text = passed ++ c.tokens ∧ ps.Sublist passed ∧
    ∀ i ∈ passed, Token.Visible c.text i → i ∈ ps

theorem passed_start (text : Text) : Passed ⟨text, 0⟩ [] :=
  ⟨[], rfl, List.Sublist.refl _, List.forall_mem_nil _⟩

theorem Passed.read (passed : c.Passed ps) (pending : c.rest = ch :: rest)
    (reached : (c.advance (1 + Token.further ch rest)).Reaches c') :
    c'.Passed (ps ++ [c.index]) := by
  obtain ⟨before, tokens, sublist, complete⟩ := passed
  obtain ⟨(inText : c'.text = c.text), between, tokens', hidden⟩ := reached
  refine ⟨before ++ [c.index] ++ between, ?_, ?_, ?_⟩
  · rw [inText, tokens, tokens_of_pending pending, tokens']
    simp only [List.append_assoc, List.cons_append, List.nil_append]
  · exact (sublist.append (.refl _)).trans (List.sublist_append_left _ _)
  · intro i h visible
    rw [inText] at visible
    obtain (earlier | now) | later := List.mem_append.mp h |>.imp_left List.mem_append.mp
    · exact List.mem_append_left _ (complete i earlier visible)
    · exact List.mem_append_right _ now
    · exact absurd visible (hidden i later)

theorem Passed.covered (passed : c.Passed ps) : Token.Covered c.text c.index ps := by
  obtain ⟨before, tokens, sublist, complete⟩ := passed
  constructor
  · rw [tokens]
    exact sublist.trans (List.sublist_append_left _ _)
  · intro i h earlier visible
    rw [tokens] at h
    obtain behind | ahead := List.mem_append.mp h
    · exact complete i behind visible
    · have := Token.le_of_mem_startsFrom ahead
      omega

end Cursor

end DeskCalculator
