import DeskCalculator.Proofs.Positional
import DeskCalculator.Proofs.RoundTrip
import DeskCalculator.Proofs.Tokens

/-!
What a numeral is read as. The characters that it takes are as many as a numeral can have, whatever
the input base is. Without a point it is an integer: the digits in front of the first that does not
fit the base, in that base. With a point it is a float: as much of it as is a decimal, in base ten.
-/

namespace DeskCalculator

/-- The longest start of a list that has a property. Every other one is a start of it. -/
structure Longest {α : Type} (P : List α → Prop) (t p : List α) : Prop where
  starts : p <+: t
  has : P p
  longest : ∀ q, q <+: t → P q → q <+: p

/-- The elements up to the first that fails a test are the longest start of those that pass it. -/
theorem longest_takeWhile {α : Type} (p : α → Bool) (t : List α) :
    Longest (fun q => ∀ a ∈ q, p a) t (t.takeWhile p) where
  starts := List.takeWhile_prefix p
  has _ mem := List.mem_takeWhile_imp mem
  longest := by
    rintro q ⟨rest, rfl⟩ passes
    rw [List.takeWhile_append_of_pos passes]
    exact List.prefix_append _ _

namespace Numeral

theorem digit?_lt {c : CodePoint} {d : Nat} (found : digit? c = some d) : d < 16 := by
  cases c with
  | surrogate => cases found
  | scalar c =>
    simp only [digit?, Char.le_def, UInt32.le_iff_toNat_le] at found
    split at found
    · rename_i decimal
      have place : c.toNat ≤ 0x39 := decimal.2
      obtain rfl := Option.some.inj found
      omega
    · split at found
      · rename_i letter
        have place : c.toNat ≤ 0x46 := letter.2
        obtain rfl := Option.some.inj found
        omega
      · cases found

/-- Characters that are digits are the characters of these digits. -/
theorem spelled_filterMap {t : Text} (digits : ∀ c ∈ t, (digit? c).isSome) :
    Spelled (t.filterMap digit?) t := by
  induction t with
  | nil => exact .nil
  | cons c t ih =>
    obtain ⟨first, others⟩ := List.forall_mem_cons.mp digits
    obtain ⟨d, found⟩ := Option.isSome_iff_exists.mp first
    have spelled := alphabet_symbol d (Nat.lt_trans (digit?_lt found) (by omega))
    rw [symbol_of_digit? found] at spelled
    rw [List.filterMap_cons_some found]
    exact .cons spelled (ih others)

/-- The number at the start of some digits is that of the digits up to the first that does not fit
the base. -/
theorem leading_eq (base : Nat) {t : Text} (digits : ∀ c ∈ t, (digit? c).isSome) :
    leading base t = placed base ((t.filterMap digit?).takeWhile (· < base)) := by
  have fitting : (t.takeWhile (fits base)).filterMap digit? =
      (t.filterMap digit?).takeWhile (· < base) := by
    induction t with
    | nil => rfl
    | cons c t ih =>
      obtain ⟨first, others⟩ := List.forall_mem_cons.mp digits
      obtain ⟨d, found⟩ := Option.isSome_iff_exists.mp first
      have fit : fits base c = decide (d < base) := by
        simp [fits, found]
      rw [List.filterMap_cons_some found, List.takeWhile_cons, List.takeWhile_cons, fit]
      by_cases small : d < base
      · simp only [small, decide_true, if_true]
        rw [List.filterMap_cons_some found, ih others]
      · simp [small]
  rw [leading, fitting, value_eq_placed]

end Numeral

namespace Decimal

open Numeral

/-- A decimal and its digits: the whole ones, or these and those behind the point. There need not be
any on either side. -/
inductive Written : List Nat → List Nat → Text → Prop where
  | whole {ds : List Nat} {t : Text} (small : ∀ d ∈ ds, d < 10) (spelled : Spelled ds t) :
      Written ds [] t
  | pointed {ds es : List Nat} {t u : Text} (small : ∀ d ∈ ds, d < 10) (spelled : Spelled ds t)
      (small' : ∀ e ∈ es, e < 10) (spelled' : Spelled es u) :
      Written ds es (t ++ .scalar '.' :: u)

/-- The float nearest to a decimal, and zero for one that has no digits. -/
def nearest (whole fraction : List Nat) : Float :=
  if whole ++ fraction = [] then 0.0
  else Float.ofScientific (placed 10 (whole ++ fraction)) true fraction.length

theorem digit?_of_isDigit {c : CodePoint} (h : isDigit c) : ∃ d < 10, digit? c = some d := by
  cases c with
  | surrogate => cases h
  | scalar c =>
    have decimal : '0' ≤ c ∧ c ≤ '9' := of_decide_eq_true h
    refine ⟨c.toNat - 0x30, ?_, if_pos decimal⟩
    have place : c.toNat ≤ 0x39 := decimal.2
    omega

theorem isDigit_of_spelled {ds : List Nat} {t : Text} (small : ∀ d ∈ ds, d < 10)
    (spelled : Spelled ds t) : ∀ c ∈ t, isDigit c := by
  have each : ∀ d < 10, ∀ c ∈ alphabet[d]?, isDigit c := by decide
  induction spelled with
  | nil => exact List.forall_mem_nil _
  | cons first _ ih =>
    obtain ⟨head, tail⟩ := List.forall_mem_cons.mp small
    exact List.forall_mem_cons.mpr ⟨each _ head _ first, ih tail⟩

theorem digits_of_isDigit {t : Text} (digits : ∀ c ∈ t, isDigit c) :
    Spelled (t.filterMap digit?) t ∧ ∀ d ∈ t.filterMap digit?, d < 10 := by
  constructor
  · refine spelled_filterMap fun c mem => ?_
    obtain ⟨d, -, found⟩ := digit?_of_isDigit (digits c mem)
    exact Option.isSome_iff_exists.mpr ⟨d, found⟩
  · intro d mem
    obtain ⟨c, read, found⟩ := List.mem_filterMap.mp mem
    obtain ⟨e, small, found'⟩ := digit?_of_isDigit (digits c read)
    rwa [Option.some.inj (found.symm.trans found')]

theorem isDigit_fractionDigits {t : Text} : ∀ c ∈ fractionDigits t, isDigit c := by
  unfold fractionDigits
  split
  · exact fun c mem => List.mem_takeWhile_imp mem
  · exact List.forall_mem_nil _

theorem read_eq (t : Text) : read t = nearest ((t.takeWhile isDigit).filterMap digit?)
    ((fractionDigits (t.dropWhile isDigit)).filterMap digit?) := by
  have long := (digits_of_isDigit (t := fractionDigits (t.dropWhile isDigit))
    isDigit_fractionDigits).1.length_eq
  have same (ds : List Nat) : (value 10 ds).toNat = placed 10 ds :=
    congrArg Int.toNat (value_eq_placed 10 ds)
  simp only [read, nearest, long, List.filterMap_append, List.isEmpty_iff, same]

/-- A text that starts with a decimal starts with no digits but those in front of its point. -/
theorem takeWhile_pointed {ds : List Nat} {t q u : Text} (start : q ++ .scalar '.' :: u <+: t)
    (small : ∀ d ∈ ds, d < 10) (spelled : Spelled ds q) :
    t.takeWhile isDigit = q ∧ .scalar '.' :: u <+: t.dropWhile isDigit := by
  obtain ⟨rest, rfl⟩ := start
  have digits := isDigit_of_spelled small spelled
  rw [List.append_assoc, List.takeWhile_append_of_pos digits, List.dropWhile_append_of_pos digits]
  exact ⟨List.append_nil q, List.prefix_append _ _⟩

/-- A decimal that a text starts with is among the digits up to the first character that is none. If
that is a point, the digits behind it may be in it too. -/
theorem longest_decimal (t : Text) : ∃ whole fraction decimal, Written whole fraction decimal ∧
    Longest (fun p => ∃ ds es, Written ds es p) t decimal ∧ read t = nearest whole fraction := by
  obtain ⟨spelled, small⟩ := digits_of_isDigit (t := t.takeWhile isDigit) fun c mem =>
    List.mem_takeWhile_imp mem
  have parts : t.takeWhile isDigit ++ t.dropWhile isDigit = t := List.takeWhile_append_dropWhile
  have wholes {ds : List Nat} {q : Text} (start : q <+: t) (small : ∀ d ∈ ds, d < 10)
      (spelled : Spelled ds q) : q <+: t.takeWhile isDigit :=
    (longest_takeWhile isDigit t).longest q start (isDigit_of_spelled small spelled)
  by_cases point : ∃ rest, t.dropWhile isDigit = .scalar '.' :: rest
  · obtain ⟨rest, point⟩ := point
    obtain ⟨spelled', small'⟩ := digits_of_isDigit (t := rest.takeWhile isDigit) fun c mem =>
      List.mem_takeWhile_imp mem
    have decimal := Written.pointed small spelled small' spelled'
    refine ⟨_, _, _, decimal, ⟨?_, ⟨_, _, decimal⟩, ?_⟩, ?_⟩
    · nth_rewrite 2 [← parts]
      rw [List.prefix_append_right_inj, point, List.prefix_cons_inj]
      exact List.takeWhile_prefix isDigit
    · rintro q start ⟨ds, es, written⟩
      cases written with
      | whole few digits => exact (wholes start few digits).trans (List.prefix_append _ _)
      | pointed few digits few' digits' =>
        obtain ⟨same, behind⟩ := takeWhile_pointed start few digits
        rw [point, List.prefix_cons_inj] at behind
        rw [same, List.prefix_append_right_inj, List.prefix_cons_inj]
        exact (longest_takeWhile isDigit rest).longest _ behind (isDigit_of_spelled few' digits')
    · rw [read_eq, point]
      rfl
  · have decimal := Written.whole small spelled
    refine ⟨_, _, _, decimal, ⟨List.takeWhile_prefix isDigit, ⟨_, _, decimal⟩, ?_⟩, ?_⟩
    · rintro q start ⟨ds, es, written⟩
      cases written with
      | whole few digits => exact wholes start few digits
      | pointed few digits few' digits' =>
        obtain ⟨-, rest, behind⟩ := takeWhile_pointed start few digits
        exact absurd ⟨_, behind.symm⟩ point
    · have none : fractionDigits (t.dropWhile isDigit) = [] := by
        unfold fractionDigits
        split
        · rename_i rest there
          exact absurd ⟨rest, there⟩ point
        · rfl
      rw [read_eq, none]
      rfl

end Decimal

namespace Literal

open Numeral

/-- A numeral: digits and points, or these behind an underscore. -/
structure Run (negative : Bool) (body run : Text) : Prop where
  sign : run = if negative then .scalar '_' :: body else body
  characters : ∀ c ∈ body, Token.inNumeral c

/-- The numeral at the start of a text is the longest, and its value is that of its body, with the
sign in front. -/
theorem exists_run {ch : CodePoint} (begins : Token.beginsNumeral ch) (rest : Text) :
    ∃ negative body, Run negative body (numeralRun (ch :: rest)) ∧
      Longest (fun t => ∃ negative body, Run negative body t) (ch :: rest)
        (numeralRun (ch :: rest)) ∧ numeralRun (ch :: rest) ≠ [] ∧
      ∀ base, number base (numeralRun (ch :: rest)) =
        if negative then negated (unsignedNumber base body) else unsignedNumber base body := by
  have same : isNumeralBody = Token.inNumeral := funext Token.inNumeral_eq
  have nonempty : numeralRun (ch :: rest) ≠ [] := by
    refine List.ne_nil_of_length_pos ?_
    rw [Token.length_numeralRun begins]
    omega
  -- The sign is read once and first, so a second underscore ends the run.
  by_cases signed : ch = .scalar '_'
  · subst signed
    have run : numeralRun (.scalar '_' :: rest) =
        .scalar '_' :: rest.takeWhile Token.inNumeral := by
      rw [numeralRun, same]
    have longest := longest_takeWhile Token.inNumeral rest
    have isRun : Run true (rest.takeWhile Token.inNumeral)
        (.scalar '_' :: rest.takeWhile Token.inNumeral) := ⟨rfl, longest.has⟩
    rw [run] at nonempty ⊢
    refine ⟨true, _, isRun, ⟨?_, ⟨_, _, isRun⟩, ?_⟩, nonempty, fun base => rfl⟩
    · exact (List.prefix_cons_inj _).mpr longest.starts
    · rintro q start ⟨negative, body, rfl, characters⟩
      cases negative with
      | true =>
        have inside := (List.prefix_cons_inj _).mp start
        exact (List.prefix_cons_inj _).mpr (longest.longest body inside characters)
      | false =>
        cases body with
        | nil => exact List.nil_prefix
        | cons c body =>
          obtain ⟨rfl, -⟩ := List.cons_prefix_cons.mp start
          exact absurd (characters _ List.mem_cons_self) (by decide)
  · have run : numeralRun (ch :: rest) = (ch :: rest).takeWhile Token.inNumeral := by
      rw [numeralRun_of_ne signed, same]
    have longest := longest_takeWhile Token.inNumeral (ch :: rest)
    have isRun : Run false ((ch :: rest).takeWhile Token.inNumeral)
        ((ch :: rest).takeWhile Token.inNumeral) := ⟨rfl, longest.has⟩
    rw [run] at nonempty ⊢
    refine ⟨false, _, isRun, ⟨longest.starts, ⟨_, _, isRun⟩, ?_⟩, nonempty, fun base => ?_⟩
    · rintro q start ⟨negative, body, rfl, characters⟩
      cases negative with
      | true => exact absurd (List.cons_prefix_cons.mp start).1.symm signed
      | false => exact longest.longest body start characters
    · -- The value is told from the run alone, which starts with no underscore either.
      obtain ⟨c, more, first⟩ := List.exists_cons_of_ne_nil nonempty
      have unsigned : c ≠ .scalar '_' := by
        rintro rfl
        have mem : .scalar '_' ∈ (ch :: rest).takeWhile Token.inNumeral :=
          first ▸ List.mem_cons_self
        exact absurd (longest.has _ mem) (by decide)
      rw [first]
      exact number_of_ne unsigned more

/-- Without a point, all the characters of a numeral behind its sign are digits. -/
theorem isSome_digit? {body : Text} (characters : ∀ c ∈ body, Token.inNumeral c)
    (pointless : .scalar '.' ∉ body) : ∀ c ∈ body, (digit? c).isSome := by
  intro c mem
  have inside := characters c mem
  rw [← Token.inNumeral_eq, isNumeralBody, Bool.or_eq_true, beq_iff_eq] at inside
  obtain digit | rfl := inside
  · exact digit
  · exact absurd mem pointless

end Literal

namespace Cursor

open Literal Numeral

/-- The numeral at a cursor is the longest run of numeral characters, one at least, and the same in
every base. Without a point it is the integer of its digits up to the first that does not fit the
base. With a point it is a float, the same in every base: the one nearest to the longest decimal
behind its sign. -/
theorem numeral_scanned {c : Cursor} {ch : CodePoint} (stands : c.peek? = some ch)
    (begins : Token.beginsNumeral ch) :
    ∃ negative body run, Run negative body run ∧
      Longest (fun t => ∃ negative body, Run negative body t) c.rest run ∧ run ≠ [] ∧
      (∀ base, (c.numeral base).2 = ⟨c.text, c.index + run.length⟩) ∧
      (.scalar '.' ∉ body → ∃ ds, Spelled ds body ∧ ∀ base : Nat, ∃ fitting,
        Longest (fun p => ∀ d ∈ p, d < base) ds fitting ∧
          (c.numeral base).1 =
            .int (if negative then -(placed base fitting) else placed base fitting)) ∧
      (.scalar '.' ∈ body → ∃ whole fraction decimal, Decimal.Written whole fraction decimal ∧
        Longest (fun p => ∃ ds es, Decimal.Written ds es p) body decimal ∧
          ∀ base, (c.numeral base).1 = .float
            (if negative then -(Decimal.nearest whole fraction)
              else Decimal.nearest whole fraction)) := by
  obtain ⟨rest, pending⟩ := List.head?_eq_some_iff.mp stands
  obtain ⟨negative, body, run, longest, nonempty, value⟩ := exists_run begins rest
  refine ⟨negative, body, _, run, pending ▸ longest, nonempty, fun base => ?_, ?_, ?_⟩
  · rw [numeral, pending, Nat.min_eq_left (index_le_of_peek? stands)]
  · intro pointless
    have digits := isSome_digit? run.characters pointless
    refine ⟨_, spelled_filterMap digits, fun base =>
      ⟨(body.filterMap digit?).takeWhile (· < base), ?_, ?_⟩⟩
    · simpa using longest_takeWhile (· < base) (body.filterMap digit?)
    · have whole : body.contains (.scalar '.') = false := by simpa using pointless
      rw [numeral, pending]
      simp only [value, unsignedNumber, whole, leading_eq base digits]
      cases negative <;> rfl
  · intro point
    obtain ⟨whole, fraction, decimal, written, first, read⟩ := Decimal.longest_decimal body
    refine ⟨whole, fraction, decimal, written, first, fun base => ?_⟩
    have pointed : body.contains (.scalar '.') = true := by simpa using point
    rw [numeral, pending]
    simp only [value, unsignedNumber, pointed, read]
    cases negative <;> rfl

/-- In `x_1C2g` the numeral at the underscore is `_1C2`, in every base. -/
theorem numeral_scanned_signed :
    let c : Cursor := ⟨Text.ofString "x_1C2g", 1⟩
    c.peek? = some (.scalar '_') ∧ Token.beginsNumeral (.scalar '_') ∧
      Longest (fun t => ∃ negative body, Run negative body t) (Text.ofString "_1C2g")
        (Text.ofString "_1C2") ∧
      ∀ base, (c.numeral base).2 = ⟨c.text, 5⟩ := by
  intro c
  have stands : c.peek? = some (.scalar '_') := by decide
  have begins : Token.beginsNumeral (.scalar '_') := by decide
  obtain ⟨-, -, run, -, longest, -, moved, -⟩ := numeral_scanned stands begins
  have behind : (c.numeral 10).2.index = 5 := by decide
  have long : run.length = 4 := by
    rw [moved] at behind
    exact Nat.add_left_cancel behind
  obtain rfl : run = Text.ofString "_1C2" := by
    rw [List.prefix_iff_eq_take.mp longest.starts, long]
    rfl
  exact ⟨stands, begins, longest, moved⟩

end Cursor

end DeskCalculator
