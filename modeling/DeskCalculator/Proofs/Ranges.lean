import DeskCalculator.Proofs.Sparing

/-!
The ranges of integer operands. Eight instructions take an integer and check it. They succeed exactly
on the integers in their range, however large; any other integer is a fault of a kind that goes with
the instruction. But most of the messages quote the integer, and one that cannot be written in decimal
leaves no fault at all: the instruction breaks down instead.
-/

namespace DeskCalculator

theorem Failure.of_untellable {cause : Cause} {n : Int} (instruction : Option Text)
    (quoted : cause.quotedInteger? = some n) (long : decimalLimit ≤ n.natAbs) :
    Failure.of cause instruction = .breakdown .numeralTooLong := by
  unfold Failure.of
  rw [quoted]
  exact if_pos long

theorem Failure.of_tellable {cause : Cause} (instruction : Option Text)
    (short : ∀ n ∈ cause.quotedInteger?, n.natAbs < decimalLimit) :
    Failure.of cause instruction = .fault ⟨cause, instruction⟩ := by
  unfold Failure.of
  cases quoted : cause.quotedInteger? with
  | none => rfl
  | some n => exact if_neg (Nat.not_le.mpr (short n quoted))

namespace Instruction

open Store

/-- The integers that an instruction which checks one lets pass. A fetch lets the indices pass that
the array called `name` has a value at. -/
def Admits (s : Store) (name : Text) (n : Int) : Instruction → Prop
  | setInputBase => 2 ≤ n ∧ n ≤ 16
  | setOutputBase => 1 < n
  | setScale => 0 ≤ n
  | quitLevels => 0 < n
  | character | dump => 0 ≤ n ∧ n ≤ 0x10FFFF
  | storeElement => 0 ≤ n
  | fetchElement => ∃ cells v, s.arrays.find? name = some cells ∧ cells.find? n = some v
  | _ => False

/-- What another integer is a fault of. -/
def rangeKind : Instruction → Kind
  | fetchElement => .missingKey
  | _ => .invalidParameter

/-- The integer that the message of this fault quotes. Of an array that there is not, only the name
is quoted. -/
def quotes (s : Store) (name : Text) (n : Int) : Instruction → Option Int
  | fetchElement => (s.arrays.find? name).map fun _ => n
  | _ => some n

/-- How the check of an integer comes out. What passes may be printed as a text, and what is refused
is refused for a cause of the given kind that quotes the given integer. -/
inductive Checked (admitted : Prop) (kind : Kind) (quoted : Option Int) :
    EStateM.Result Failure Store Response → Prop where
  | passed {response : Response} {s : Store} (inRange : admitted)
      (texts : ∀ p ∈ response.prints, ∃ t, p.value = .text t) :
      Checked admitted kind quoted (.ok response s)
  | refused {cause : Cause} {instruction : Option Text} {s : Store} (outside : ¬ admitted)
      (isKind : cause.kind = kind) (quotes : cause.quotedInteger? = quoted) :
      Checked admitted kind quoted (.error (.of cause instruction) s)

section checking
variable {s : Store} {n : Int} {rest : List Value} (stack : s.stack = .int n :: rest)
include stack

theorem popInt_int (rule : Text) : popInt rule s = .ok n { s with stack := rest } := by
  simp only [popInt, bind_apply, pop, stack, attempt, Value.toInt]

theorem checked_set (rule : Text) (cause : Int → Cause) {p : Int → Prop} [DecidablePred p]
    {f : (n : Int) → p n → Store → Store} {r : Response} {instruction : Option Text}
    (silent : r.prints = [])
    (isKind : (cause n).kind = .invalidParameter) (quotes : (cause n).quotedInteger? = some n) :
    Checked (p n) .invalidParameter (some n) ((do
      let n ← popInt rule
      if h : p n then
        update (f n h)
        return r
      else fail (.of (cause n) instruction)) s) := by
  rw [bind_ok (popInt_int stack rule)]
  by_cases inRange : p n
  · rw [dif_pos inRange]
    exact .passed inRange (by simp [silent])
  · rw [dif_neg inRange]
    exact .refused inRange isKind quotes

omit stack in
/-- A number is the code of a character, or it is refused. -/
theorem toCharacter_int (rule : Text) (n : Int) :
    (∃ c, (Value.int n).toCharacter rule = .ok [c] ∧ 0 ≤ n ∧ n ≤ 0x10FFFF) ∨
      (Value.int n).toCharacter rule = .error (.of (.noCharacter n) rule) ∧
        ¬ (0 ≤ n ∧ n ≤ 0x10FFFF) := by
  have coded := CodePoint.ofNumber?_isSome_iff n.toNat
  simp only [Value.toCharacter, Value.toInt, bind, Except.bind]
  by_cases negative : n < 0
  · rw [if_pos negative]
    exact .inr ⟨rfl, by omega⟩
  · rw [if_neg negative]
    cases found : CodePoint.ofNumber? n.toNat with
    | none =>
      simp only [found, Option.isSome_none, Bool.false_eq_true, false_iff] at coded
      exact .inr ⟨rfl, by omega⟩
    | some c =>
      simp only [found, Option.isSome_some, true_iff] at coded
      exact .inl ⟨c, rfl, by omega, by omega⟩

theorem checked_character (next : Option Text) (turned : Bool) :
    Checked (0 ≤ n ∧ n ≤ 0x10FFFF) .invalidParameter (some n)
      (character.perform next turned s) := by
  have popped : pop s = .ok (.int n) { s with stack := rest } := by simp only [pop, stack]
  simp only [perform, bind_ok popped, bind_apply, attempt]
  obtain ⟨c, coded, inRange⟩ | ⟨refused, outside⟩ := toCharacter_int 'a' n
  · rw [coded]
    exact .passed inRange (List.forall_mem_nil _)
  · rw [refused]
    exact .refused outside rfl rfl

theorem checked_performDump :
    Checked (0 ≤ n ∧ n ≤ 0x10FFFF) .invalidParameter (some n) (performDump s) := by
  have popped : pop s = .ok (.int n) { s with stack := rest } := by simp only [pop, stack]
  simp only [performDump, bind_ok popped, bind_apply, attempt]
  obtain ⟨c, coded, inRange⟩ | ⟨refused, outside⟩ := toCharacter_int 'P' n
  · rw [coded]
    exact .passed inRange (List.forall_mem_singleton.mpr ⟨_, rfl⟩)
  · rw [refused]
    exact .refused outside rfl rfl

theorem checked_performStoreElement (name : Text) (beneath : rest ≠ []) :
    Checked (0 ≤ n) .invalidParameter (some n) (performStoreElement name s) := by
  obtain ⟨v, rest, rfl⟩ := List.exists_cons_of_ne_nil beneath
  rw [performStoreElement_eq]
  simp only [stack, Value.toInt]
  by_cases negative : n < 0
  · rw [if_pos negative]
    exact .refused (by omega) rfl rfl
  · rw [if_neg negative]
    exact .passed (by omega) (List.forall_mem_nil _)

theorem checked_performFetchElement (name : Text) :
    Checked (fetchElement.Admits s name n) .missingKey (fetchElement.quotes s name n)
      (performFetchElement name s) := by
  simp only [performFetchElement, bind_ok (popInt_int stack ';'), bind_apply, existingArray, Admits,
    quotes]
  cases named : s.arrays.find? name with
  | none => exact .refused (by simp) rfl rfl
  | some cells =>
    simp only [attempt, Cells.fetch]
    cases there : cells.find? n with
    | none => exact .refused (by simp [there]) rfl rfl
    | some v => exact .passed ⟨cells, v, rfl, there⟩ (List.forall_mem_nil _)

end checking

/-- The characters of the instructions that check an integer. -/
def checkers : Text := Text.ofString "iokQaP:;"

theorem checked_perform {ch : CodePoint} (next : Option Text) (turned : Bool) {s : Store} {n : Int}
    {rest : List Value} (checks : ch ∈ checkers) (stack : s.stack = .int n :: rest)
    (beneath : ch = .scalar ':' → rest ≠ []) :
    Checked ((ofName [ch]).Admits s (nameOf next) n) (ofName [ch]).rangeKind
      ((ofName [ch]).quotes s (nameOf next) n) ((ofName [ch]).perform next turned s) := by
  have listed : checkers = [.scalar 'i', .scalar 'o', .scalar 'k', .scalar 'Q', .scalar 'a',
      .scalar 'P', .scalar ':', .scalar ';'] := by decide
  simp only [listed, List.mem_cons, List.not_mem_nil, or_false] at checks
  obtain rfl | rfl | rfl | rfl | rfl | rfl | rfl | rfl := checks
  · change Checked (2 ≤ n ∧ n ≤ 16) .invalidParameter (some n) (performSetInputBase s)
    apply checked_set stack 'i' .inputBase <;> rfl
  · change Checked (1 < n) .invalidParameter (some n) (performSetOutputBase s)
    apply checked_set stack 'o' .outputBase <;> rfl
  · change Checked (0 ≤ n) .invalidParameter (some n) (performSetScale s)
    apply checked_set stack 'k' .negativeScale <;> rfl
  · change Checked (0 < n) .invalidParameter (some n) (performQuitLevels s)
    apply checked_set stack 'Q' .quitLevels <;> rfl
  · exact checked_character stack next turned
  · exact checked_performDump stack
  · exact checked_performStoreElement stack (nameOf next) (beneath rfl)
  · exact checked_performFetchElement stack (nameOf next)

end Instruction

/-- A failure for this cause is a fault of it, or a breakdown if the integer it quotes is too long. -/
theorem Failure.ascribe_of (cause : Cause) (instruction : Option Text) (name : Text) :
    (∃ f, (Failure.of cause instruction).ascribe name = .fault f ∧ f.cause = cause ∧
        ¬ ∃ n ∈ cause.quotedInteger?, decimalLimit ≤ n.natAbs) ∨
      (Failure.of cause instruction).ascribe name = .breakdown .numeralTooLong ∧
        ∃ n ∈ cause.quotedInteger?, decimalLimit ≤ n.natAbs := by
  by_cases untellable : ∃ n ∈ cause.quotedInteger?, decimalLimit ≤ n.natAbs
  · obtain ⟨n, quoted, long⟩ := untellable
    rw [Failure.of_untellable instruction quoted long]
    exact .inr ⟨rfl, n, quoted, long⟩
  · have tellable : ∀ n ∈ cause.quotedInteger?, n.natAbs < decimalLimit := by
      intro n quoted
      exact Nat.lt_of_not_le fun long => untellable ⟨n, quoted, long⟩
    rw [Failure.of_tellable instruction tellable]
    exact .inl ⟨_, rfl, rfl, untellable⟩

namespace Machine

open Instruction

variable {host : Host}

/-- A host that takes every text takes all the texts that are printed. -/
theorem printAll_returns (returns : ∀ history t, host.write history t = none)
    {prints : List Print} (texts : ∀ p ∈ prints, ∃ t, p.value = .text t) (m : Machine) :
    ∃ m', printAll host prints m = .ok () m' := by
  induction prints generalizing m with
  | nil => exact ⟨m, rfl⟩
  | cons p rest ih =>
    obtain ⟨⟨t, isText⟩, others⟩ := List.forall_mem_cons.mp texts
    obtain ⟨text, shown⟩ : ∃ text, printed m.store.outputBase p = .ok text := by
      unfold printed
      rw [isText]
      exact ⟨_, rfl⟩
    have written : print host p m = .ok () { m with history := .wrote text :: m.history } := by
      simp only [print, shown, bind_apply, ask, returns, note, update]
    rw [printAll, bind_ok written]
    exact ih others _

variable {m : Machine} {ch : CodePoint} {n : Int} {rest : List Value}

/-- An instruction that checks the integer on top of the stack either succeeds, the integer being in
its range, or fails for its integer, the way such a failure comes out. -/
theorem perform_checked (returns : ∀ history t, host.write history t = none) (next : Option Text)
    (turned : Bool) (builtIn : m.overrides = {}) (checks : ch ∈ checkers)
    (stack : m.store.stack = .int n :: rest) (beneath : ch = .scalar ':' → rest ≠ [])
    (named : (ofName [ch]).needsName → next ≠ none) :
    (∃ action m', perform host [ch] next turned m = .ok action m' ∧
        (ofName [ch]).Admits m.store (nameOf next) n) ∨
      ∃ cause instruction m', perform host [ch] next turned m =
          .error ((Failure.of cause instruction).ascribe [ch]) m' ∧
        ¬ (ofName [ch]).Admits m.store (nameOf next) n ∧ cause.kind = (ofName [ch]).rangeKind ∧
        cause.quotedInteger? = (ofName [ch]).quotes m.store (nameOf next) n := by
  have checked := checked_perform next turned checks stack beneath
  have responded : respond [ch] next turned m =
      onStore (Overrides.perform {} [ch] next turned) m := by
    rw [respond, builtIn]
  rw [onStore, Overrides.builtIn_perform,
    if_neg fun missing => named missing.1 missing.2] at responded
  cases performed : (ofName [ch]).perform next turned m.store with
  | ok response s =>
    rw [performed] at checked responded
    obtain ⟨inRange, texts⟩ | _ := checked
    obtain ⟨m', written⟩ := printAll_returns returns texts { m with store := s }
    refine .inl ⟨response.action, m', ?_, inRange⟩
    simp only [perform, bind_ok responded, bind_apply, ascribing, written]
    rfl
  | error failure s =>
    rw [performed] at checked responded
    cases checked with
    | @refused cause instruction _ outside isKind quotes =>
      exact .inr ⟨cause, instruction, _, bind_error responded _, outside, isKind, quotes⟩

/-- The instructions that check an integer, with a host that takes every text. They succeed exactly
if the integer is in their range. Otherwise they fail with a fault of their kind, exactly if the
integer that its message quotes can be written in decimal; if it cannot be they break down. -/
theorem range_checked (returns : ∀ history t, host.write history t = none) (next : Option Text)
    (turned : Bool) (builtIn : m.overrides = {}) (checks : ch ∈ checkers)
    (stack : m.store.stack = .int n :: rest) (beneath : ch = .scalar ':' → rest ≠ [])
    (named : (ofName [ch]).needsName → next ≠ none) :
    let outcome := perform host [ch] next turned m
    let admitted := (ofName [ch]).Admits m.store (nameOf next) n
    let untellable :=
      ∃ k ∈ (ofName [ch]).quotes m.store (nameOf next) n, decimalLimit ≤ k.natAbs
    ((∃ action m', outcome = .ok action m') ↔ admitted) ∧
      ((∃ f m', outcome = .error (.fault f) m' ∧ f.cause.kind = (ofName [ch]).rangeKind) ↔
        ¬ admitted ∧ ¬ untellable) ∧
      ((∃ m', outcome = .error (.breakdown .numeralTooLong) m') ↔ ¬ admitted ∧ untellable) := by
  intro outcome admitted untellable
  obtain ⟨action, m', passed, inRange⟩ | ⟨cause, instruction, m', refused, outside, isKind, quotes⟩ :=
    perform_checked returns next turned builtIn checks stack beneath named
  · simp only [outcome, passed]
    simp [admitted, inRange]
  · simp only [outcome, refused]
    obtain ⟨f, told, rfl, tellable⟩ | ⟨told, long⟩ := Failure.ascribe_of cause instruction [ch]
    · rw [quotes] at tellable
      simp [admitted, outside, told, isKind, untellable, tellable]
    · rw [quotes] at long
      simp [admitted, outside, told, untellable, long]

/-- The integer 0x110000 is the code of no character, and it is short enough to say so. -/
theorem range_checked_no_character :
    ∃ f m', perform {} [.scalar 'P'] none false { store := { stack := [.int 0x110000] } } =
      .error (.fault f) m' ∧ f.cause.kind = .invalidParameter := by
  let m : Machine := { store := { stack := [.int 0x110000] } }
  obtain ⟨-, refused, -⟩ := @range_checked {} m (.scalar 'P') 0x110000 [] (fun _ _ => rfl)
    none false rfl (by decide) rfl (by decide) (by decide)
  refine refused.mpr ⟨?_, ?_⟩
  · rintro ⟨-, small⟩
    exact absurd small (by decide)
  · rintro ⟨k, quoted, long⟩
    obtain rfl : (0x110000 : Int) = k := Option.some.inj quoted
    revert long
    decide +kernel

/-- No input base is as large as the smallest integer that is too long to be written in decimal, but
no fault can say so: the instruction that sets it breaks down. -/
theorem range_unchecked :
    let m : Machine := { store := { stack := [.int decimalLimit] } }
    ∃ m', perform {} [.scalar 'i'] none false m = .error (.breakdown .numeralTooLong) m' := by
  intro m
  have refused : (match perform {} [.scalar 'i'] none false m with
      | .error (.breakdown b) _ => some b
      | _ => none) = some .numeralTooLong := by
    decide +kernel
  cases failed : perform {} [.scalar 'i'] none false m with
  | ok action m' =>
    rw [failed] at refused
    cases refused
  | error failure m' =>
    rw [failed] at refused
    cases failure with
    | fault f => cases refused
    | breakdown b =>
      obtain rfl := Option.some.inj refused
      exact ⟨m', rfl⟩

end Machine

end DeskCalculator
