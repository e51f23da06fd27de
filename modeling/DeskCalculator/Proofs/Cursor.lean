import DeskCalculator.Cursor

/-!
What the readers of a cursor leave to be read. A reader goes by what is left at its cursor alone. When
a text goes on behind its end, on a new line, every reader takes from it what it would have taken
without, and leaves what it would have left with the new text behind it; only at the end of the old
text may it already have taken blanks and comments of the new one.
-/

namespace DeskCalculator

namespace Literal

/-- A text without the blanks and comments that it starts with. -/
def trimmed (t : Text) : Text := t.drop (blankLength false t)

/-- What follows the blanks and comments at the start of a text is neither. -/
theorem head?_drop_blankLength {comment : Bool} {t : Text} {ch : CodePoint}
    (h : (t.drop (blankLength comment t)).head? = some ch) :
    ch ≠ .scalar '#' ∧ isBlank ch = false := by
  induction t generalizing comment with
  | nil => simp [blankLength] at h
  | cons c rest ih =>
    rw [blankLength] at h
    split at h
    · exact ih h
    · split at h
      · exact ih h
      · rename_i visible
        split at h
        · exact ih h
        · rename_i unblank
          obtain rfl : c = ch := by simpa using h
          exact ⟨visible, by simpa using unblank⟩

theorem trimmed_blank {c : CodePoint} (h : isBlank c) (t : Text) : trimmed (c :: t) = trimmed t := by
  have visible : c ≠ .scalar '#' := by
    rintro rfl
    exact absurd h (by decide)
  simp [trimmed, blankLength, visible, h]

theorem trimmed_visible {c : CodePoint} (visible : c ≠ .scalar '#') (h : isBlank c = false)
    (t : Text) : trimmed (c :: t) = c :: t := by
  simp [trimmed, blankLength, visible, h]

theorem trimmed_newline (t : Text) : trimmed (.scalar '\n' :: t) = trimmed t :=
  trimmed_blank (by decide) t

theorem trimmed_trimmed (t : Text) : trimmed (trimmed t) = trimmed t := by
  cases h : trimmed t with
  | nil => rfl
  | cons c rest =>
    have found : (t.drop (blankLength false t)).head? = some c := congrArg List.head? h
    obtain ⟨visible, unblank⟩ := head?_drop_blankLength found
    exact trimmed_visible visible unblank rest

theorem drop_blankLength_cons (comment : Bool) (c : CodePoint) (t : Text) :
    (c :: t).drop (blankLength comment (c :: t)) =
      if comment then t.drop (blankLength (!Text.isNewline c) t)
      else if c = .scalar '#' then t.drop (blankLength true t)
      else if isBlank c then t.drop (blankLength false t)
      else c :: t := by
  simp only [blankLength]
  split
  · rfl
  · split
    · rfl
    · split <;> rfl

/-- Nothing, or a new line. -/
inductive OnNewLine : Text → Prop where
  | nothing : OnNewLine []
  | line (t : Text) : OnNewLine (.scalar '\n' :: t)

/-- What is left of a text, and of the text that goes on with `more`: the same with `more` behind it,
or nothing and `more` without some of its blanks and comments. -/
inductive Joined (more : Text) : Text → Text → Prop where
  | inside (t : Text) : Joined more t (t ++ more)
  | beyond {t : Text} (goesOn : more ≠ []) (blank : trimmed t = trimmed more) : Joined more [] t

/-- What is left of them behind the blanks and comments. -/
def Behind (more t t' : Text) : Prop := t' = if t = [] then trimmed more else t ++ more

variable {more t t' : Text} {k : Nat}

theorem Joined.refl (t : Text) : Joined [] t t := by
  have h : Joined [] t (t ++ []) := .inside t
  rwa [List.append_nil] at h

theorem joined_nil : Joined [] t t' ↔ t' = t := by
  constructor
  · rintro (_ | ⟨goesOn, -⟩)
    · exact List.append_nil t
    · exact absurd rfl goesOn
  · rintro rfl
    exact .refl t'

theorem Joined.append (h : Joined more t t') (left : t ≠ []) : t' = t ++ more := by
  cases h with
  | inside => rfl
  | beyond => exact absurd rfl left

theorem Joined.blank (h : Joined more [] t) : trimmed t = trimmed more := by
  cases h with
  | inside => rfl
  | beyond _ blank => exact blank

theorem Behind.joined (h : Behind more t t') : Joined more t t' := by
  subst h
  split
  · rename_i ended
    subst ended
    by_cases goesOn : more = []
    · subst goesOn
      exact .inside []
    · exact .beyond goesOn (trimmed_trimmed more)
  · exact .inside t

theorem drop_blankLength_append (onNewLine : OnNewLine more) (comment : Bool) (t : Text) :
    Behind more (t.drop (blankLength comment t))
      ((t ++ more).drop (blankLength comment (t ++ more))) := by
  induction t generalizing comment with
  | nil =>
    cases onNewLine with
    | nothing => rfl
    | line more =>
      rw [Behind, List.nil_append, drop_blankLength_cons, trimmed_newline]
      cases comment <;> rfl
  | cons c rest ih =>
    rw [List.cons_append, drop_blankLength_cons, drop_blankLength_cons]
    split
    · exact ih _
    · split
      · exact ih _
      · split
        · exact ih _
        · rfl

theorem Joined.trimmed (h : Joined more t t') (onNewLine : OnNewLine more) :
    Behind more (trimmed t) (trimmed t') := by
  cases h with
  | inside => exact drop_blankLength_append onNewLine false t
  | beyond _ blank => exact blank

/-- A reader may pass one character more than the old text has left. -/
theorem Joined.drop (onNewLine : OnNewLine more) (le : k ≤ t.length + 1) :
    Joined more (t.drop k) ((t ++ more).drop k) := by
  by_cases within : k ≤ t.length
  · rw [List.drop_append_of_le_length within]
    exact .inside _
  · obtain rfl : k = t.length + 1 := by omega
    rw [List.drop_of_length_le (by omega), List.drop_append, List.drop_of_length_le (by omega),
      List.nil_append, Nat.add_sub_cancel_left]
    cases onNewLine with
    | nothing => exact .inside []
    | line more => exact .beyond (List.cons_ne_nil _ _) (trimmed_newline more).symm

theorem takeWhile_append {p : CodePoint → Bool} (h : p (.scalar '\n') = false)
    (onNewLine : OnNewLine more) (t : Text) : (t ++ more).takeWhile p = t.takeWhile p := by
  rw [List.takeWhile_append]
  split
  · rename_i all
    have taken : t.takeWhile p = t := (List.takeWhile_prefix p).eq_of_length all
    cases onNewLine with
    | nothing => simp [taken]
    | line more => simp [taken, h]
  · rfl

theorem firstLine_append (onNewLine : OnNewLine more) (t : Text) :
    Text.firstLine (t ++ more) = Text.firstLine t :=
  takeWhile_append (by decide) onNewLine t

theorem blankLength_le (comment : Bool) (t : Text) : blankLength comment t ≤ t.length := by
  fun_induction blankLength comment t with
  | case1 => exact Nat.le_refl _
  | case2 _ _ shorter => exact Nat.succ_le_succ shorter
  | case3 _ _ _ shorter => exact Nat.succ_le_succ shorter
  | case4 _ _ _ _ _ _ shorter => exact Nat.succ_le_succ shorter
  | case5 => exact Nat.zero_le _

theorem length_firstLine_le (t : Text) : (Text.firstLine t).length ≤ t.length :=
  (List.takeWhile_prefix _).length_le

theorem numeralRun_append (onNewLine : OnNewLine more) (t : Text) :
    numeralRun (t ++ more) = numeralRun t := by
  have taken (rest : Text) := takeWhile_append (p := isNumeralBody) (by decide) onNewLine rest
  cases t with
  | nil =>
    cases onNewLine with
    | nothing => rfl
    | line more => rfl
  | cons c rest =>
    rw [List.cons_append]
    unfold numeralRun
    split
    · rename_i rest' h
      obtain ⟨rfl, rfl⟩ := List.cons.inj h
      simp only [taken]
    · rename_i unsigned
      split
      · rename_i rest' h
        obtain ⟨rfl, rfl⟩ := List.cons.inj h
        exact absurd rfl (unsigned _)
      · exact taken (c :: rest)

theorem length_numeralRun_le (t : Text) : (numeralRun t).length ≤ t.length := by
  unfold numeralRun
  split
  · simpa using (List.takeWhile_prefix isNumeralBody).length_le
  · exact (List.takeWhile_prefix isNumeralBody).length_le

/-- How far a bracket is from the one that closes it, by the character between them. -/
theorem closing?_cons (depth : Nat) (c : CodePoint) (t : Text) :
    closing? depth (c :: t) =
      if c = .scalar '[' then (closing? (depth + 1) t).map (· + 1)
      else if c = .scalar ']' then
        if depth = 0 then some 0 else (closing? (depth - 1) t).map (· + 1)
      else (closing? depth t).map (· + 1) := by
  cases depth <;> rfl

theorem closing?_append {depth : Nat} (h : closing? depth t = some k) (more : Text) :
    closing? depth (t ++ more) = some k := by
  induction t generalizing depth k with
  | nil => cases h
  | cons c rest ih =>
    have deeper {depth k : Nat} (h : (closing? depth rest).map (· + 1) = some k) :
        (closing? depth (rest ++ more)).map (· + 1) = some k := by
      obtain ⟨j, found, rfl⟩ := Option.map_eq_some_iff.mp h
      rw [ih found, Option.map_some]
    rw [List.cons_append, closing?_cons]
    rw [closing?_cons] at h
    split at h
    · rename_i opens
      rw [if_pos opens, deeper h]
    · rename_i shut
      rw [if_neg shut]
      split at h
      · rename_i closes
        rw [if_pos closes]
        split at h
        · rename_i outermost
          rw [if_pos outermost, h]
        · rename_i inner
          rw [if_neg inner, deeper h]
      · rename_i plain
        rw [if_neg plain, deeper h]

theorem closing?_lt {depth : Nat} (h : closing? depth t = some k) : k < t.length := by
  induction t generalizing depth k with
  | nil => cases h
  | cons c rest ih =>
    have later {depth k : Nat} (h : (closing? depth rest).map (· + 1) = some k) :
        k < (c :: rest).length := by
      obtain ⟨j, found, rfl⟩ := Option.map_eq_some_iff.mp h
      exact Nat.succ_lt_succ (ih found)
    rw [closing?_cons] at h
    split at h
    · exact later h
    · split at h
      · split at h
        · cases h
          exact Nat.succ_pos _
        · exact later h
      · exact later h

end Literal

namespace Cursor

variable {c c' : Cursor} {more : Text}

@[simp] theorem rest_advance (c : Cursor) (n : Nat) : (c.advance n).rest = c.rest.drop n := by
  simp [rest, advance]

theorem advance_advance (c : Cursor) (i j : Nat) : (c.advance i).advance j = c.advance (i + j) := by
  simp only [advance, Nat.add_assoc]

@[simp] theorem rest_toEnd (c : Cursor) : c.toEnd.rest = [] := by
  simp [rest, toEnd]

@[simp] theorem rest_skipBlank (c : Cursor) : c.skipBlank.rest = Literal.trimmed c.rest :=
  rest_advance c _

theorem rest_line (c : Cursor) :
    c.line.2.rest = c.rest.drop ((Text.firstLine c.rest).length + 1) := by
  unfold line
  dsimp only
  split
  · exact rest_advance c _
  · rename_i last
    rw [rest_toEnd, List.drop_of_length_le (by omega)]

theorem rest_numeral (base : Int) (c : Cursor) :
    (c.numeral base).2.rest = c.rest.drop (Literal.numeralRun c.rest).length := by
  change c.text.drop (min c.index c.text.length + _) = _
  rw [← List.drop_drop]
  congr 1
  obtain within | past := Nat.le_total c.index c.text.length
  · rw [Nat.min_eq_left within, rest]
  · rw [Nat.min_eq_right past, rest, List.drop_of_length_le past, List.drop_length]

theorem peek?_skipBlank {ch : CodePoint} (h : c.skipBlank.peek? = some ch) :
    ch ≠ .scalar '#' ∧ Literal.isBlank ch = false := by
  rw [peek?, rest_skipBlank] at h
  exact Literal.head?_drop_blankLength h

theorem peek?_eq (c : Cursor) : c.peek? = c.text[c.index]? := by
  simp [peek?, rest, List.head?_drop]

theorem length_rest (c : Cursor) : c.rest.length = c.text.length - c.index := List.length_drop

theorem index_lt_of_peek? {ch : CodePoint} (h : c.peek? = some ch) : c.index < c.text.length := by
  rw [peek?_eq] at h
  exact (List.getElem?_eq_some_iff.mp h).1

theorem index_le_of_peek? {ch : CodePoint} (h : c.peek? = some ch) : c.index ≤ c.text.length :=
  Nat.le_of_lt (index_lt_of_peek? h)

theorem peek?_of_not_atEnd (h : ¬ c.atEnd) : ∃ ch, c.peek? = some ch := by
  cases hr : c.rest with
  | nil => simp [atEnd, hr] at h
  | cons ch rest => exact ⟨ch, by simp [peek?, hr]⟩

theorem atEnd_iff : c.atEnd ↔ c.rest = [] := List.isEmpty_iff

/-- The second cursor is in a text that goes on with `more`. -/
def Joined (more : Text) (c c' : Cursor) : Prop := Literal.Joined more c.rest c'.rest

def Behind (more : Text) (c c' : Cursor) : Prop := Literal.Behind more c.rest c'.rest

theorem Behind.joined (h : Behind more c c') : Joined more c c' := Literal.Behind.joined h

variable (onNewLine : Literal.OnNewLine more)
include onNewLine

theorem Joined.skipBlank (h : Joined more c c') : Behind more c.skipBlank c'.skipBlank := by
  rw [Behind, rest_skipBlank, rest_skipBlank]
  exact Literal.Joined.trimmed h onNewLine

variable (same : c'.rest = c.rest ++ more)
include same

theorem joined_advance : Joined more (c.advance 1) (c'.advance 1) := by
  rw [Joined, rest_advance, rest_advance, same]
  exact .drop onNewLine (by omega)

theorem joined_line : c'.line.1 = c.line.1 ∧ Joined more c.line.2 c'.line.2 := by
  have lines := Literal.firstLine_append onNewLine c.rest
  constructor
  · change Text.firstLine c'.rest = Text.firstLine c.rest
    rw [same, lines]
  · rw [Joined, rest_line, rest_line, same, lines]
    exact .drop onNewLine (Nat.succ_le_succ (Literal.length_firstLine_le _))

theorem joined_numeral (base : Int) :
    (c'.numeral base).1 = (c.numeral base).1 ∧
      Joined more (c.numeral base).2 (c'.numeral base).2 := by
  have runs := Literal.numeralRun_append onNewLine c.rest
  constructor
  · change Literal.number base (Literal.numeralRun c'.rest) = Literal.number base _
    rw [same, runs]
  · rw [Joined, rest_numeral, rest_numeral, same, runs]
    exact .drop onNewLine (Nat.le_succ_of_le (Literal.length_numeralRun_le _))

/-- A string that is closed ends where it did, whatever follows. -/
theorem joined_string (closed : more = [] ∨ (Literal.closing? 0 c.rest).isSome) :
    c'.string.1 = c.string.1 ∧ Joined more c.string.2 c'.string.2 := by
  cases found : Literal.closing? 0 c.rest with
  | none =>
    obtain rfl : more = [] := by simpa [found] using closed
    rw [List.append_nil] at same
    simp only [string, same, found, Joined, rest_toEnd, true_and]
    exact .refl []
  | some k =>
    have lt := Literal.closing?_lt found
    have found' : Literal.closing? 0 c'.rest = some k := by
      rw [same]
      exact Literal.closing?_append found more
    simp only [string, found, found', Joined, rest_advance]
    rw [same]
    exact ⟨List.take_append_of_le_length (by omega), .drop onNewLine (by omega)⟩

end Cursor

end DeskCalculator
