import DeskCalculator.Proofs.Instruction.Levels

/-!
Whom the fault of an instruction blames. Where something goes wrong the fault may be ascribed there,
and then it is ascribed to the instruction that is performed; otherwise it is ascribed to nothing yet.
-/

namespace DeskCalculator

/-- A failure whose fault, if it is one, is ascribed to `name` or to nothing yet. -/
def Failure.Blames (name : Text) (failure : Failure) : Prop :=
  ∀ f, failure = .fault f → f.instruction = none ∨ f.instruction = some name

/-- A result that fails with no fault but one that blames `name`. -/
def Blaming {α : Type} (name : Text) (r : Except Failure α) : Prop :=
  ∀ failure, r = .error failure → failure.Blames name

/-- An activity that fails with no fault but one that blames `name`. -/
abbrev Blamed {σ α : Type} (name : Text) (x : EStateM Failure σ α) : Prop :=
  Secures (fun _ => True) (fun failure _ => failure.Blames name) x

/-- A failure whose fault, if it is one, is ascribed to `name`. -/
def Failure.AscribedTo (name : Text) (failure : Failure) : Prop :=
  ∀ f, failure = .fault f → f.instruction = some name

theorem Failure.Blames.ascribe {name : Text} {failure : Failure} (h : failure.Blames name) :
    (failure.ascribe name).AscribedTo name := by
  rintro _ ascribed
  cases failure with
  | breakdown => cases ascribed
  | fault f =>
    cases ascribed
    obtain none | already := h f rfl
    · simp [none]
    · simp [already]

section blaming
variable {α β : Type} {name : Text}

theorem blames_of (cause : Cause) {instruction : Option Text}
    (h : instruction = none ∨ instruction = some name) :
    (Failure.of cause instruction).Blames name := by
  rintro f found
  unfold Failure.of at found
  split at found
  · split at found
    · cases found
    · cases found
      exact h
  · cases found
    exact h

theorem blames_breakdown (b : Breakdown) : (Failure.breakdown b).Blames name := nofun

theorem Blaming.ok (a : α) : Blaming name (.ok a) := nofun

theorem Blaming.error {failure : Failure} (h : failure.Blames name) :
    Blaming name (.error failure : Except Failure α) := by
  rintro _ ⟨⟩
  exact h

theorem blames_unascribed (cause : Cause) : (Failure.of cause).Blames name :=
  blames_of cause (.inl rfl)

theorem blaming_of (cause : Cause) : Blaming name (.error (.of cause name) : Except Failure α) :=
  .error (blames_of cause (.inr rfl))

theorem Blaming.ite {p : Prop} [Decidable p] {r r' : Except Failure α} (h : Blaming name r)
    (h' : Blaming name r') : Blaming name (if p then r else r') := by
  split
  · exact h
  · exact h'

theorem Blaming.bind {r : Except Failure α} {g : α → Except Failure β} (h : Blaming name r)
    (hg : ∀ a, Blaming name (g a)) : Blaming name (r >>= g) := by
  cases r with
  | error failure => exact .error (h failure rfl)
  | ok a => exact hg a

end blaming

namespace Value

variable {rule : Text}

theorem blaming_toInt (rule : Text) (v : Value) : Blaming rule (v.toInt rule) := by
  cases v with
  | int n => exact .ok n
  | text t => exact blaming_of _
  | float x =>
    change Blaming rule ((Binary64.ofFloat x).truncate.mapError _)
    cases (Binary64.ofFloat x).truncate with
    | ok n => exact .ok n
    | error e => exact .error (blames_breakdown _)

theorem blaming_pair (rule : Text) (left right : Value) : Blaming rule (pair rule left right) := by
  unfold pair
  split
  · exact .ok _
  · refine .ite ?_ (blaming_of _)
    split
    · exact .ok _
    · exact blaming_of _

theorem blaming_compare (rule : Text) (upper lower : Value) :
    Blaming rule (upper.compare rule lower) := by
  unfold compare
  split
  · exact .ok _
  · exact .ok _
  · exact .ok _
  · exact .ok _
  · exact blaming_of _

theorem blaming_toCharacter (rule : Text) (v : Value) : Blaming rule (v.toCharacter rule) := by
  cases v with
  | text t => exact .ok _
  | int | float =>
    refine (blaming_toInt rule _).bind fun code => ?_
    split
    · exact .ok _
    · exact blaming_of _

theorem blaming_divMod (left right : Value) : Blaming '~' (divMod left right) := by
  refine (blaming_pair '~' left right).bind fun p => ?_
  cases p with
  | ints | floats => exact .ite (blaming_of _) (.ok _)

theorem blaming_floatPow (x y : Float) : Blaming '^' (floatPow x y) :=
  .ite (blaming_of _) (.ok _)

theorem blaming_pow (left right : Value) : Blaming '^' (pow left right) := by
  refine (blaming_pair '^' left right).bind fun p => ?_
  cases p with
  | ints a b =>
    refine .ite (blaming_of _) (.ite (.ok _) ?_)
    split
    · exact blaming_floatPow _ _
    · exact blaming_of _
  | floats x y => exact .ite (blaming_of _) (.ite (blaming_of _) (blaming_floatPow x y))

theorem blaming_sqrt (v : Value) : Blaming 'v' v.sqrt := by
  cases v with
  | text => exact blaming_of _
  | float => exact .ite (blaming_of _) (.ok _)
  | int n =>
    refine .ite (blaming_of _) ?_
    split
    · exact .ok _
    · exact blaming_of _

theorem blaming_operate (op : Operator) (left right : Value) :
    Blaming [op.symbol] (operate op left right) := by
  cases op with
  | add | sub | mul =>
    refine (blaming_pair _ left right).bind fun p => ?_
    cases p <;> exact .ok _
  | div | mod =>
    refine (blaming_pair _ left right).bind fun p => ?_
    cases p <;> exact .ite (blaming_of _) (.ok _)
  | pow => exact blaming_pow left right

end Value

namespace Store

variable {α : Type} {name : Text}

theorem blamed_attempt {r : Except Failure α} (h : Blaming name r) : Blamed name (attempt r) := by
  intro s _
  cases r with
  | ok a => trivial
  | error failure => exact h failure rfl

theorem blamed_fail {failure : Failure} (h : failure.Blames name) :
    Blamed name (fail failure : Calculation α) :=
  fun _ _ => h

theorem blamed_read (f : Store → α) : Blamed name (read f) := fun _ _ => trivial

theorem blamed_update (f : Store → Store) : Blamed name (update f) := fun _ _ => trivial

theorem blamed_pop : Blamed name pop := by
  intro s _
  unfold pop
  cases s.stack with
  | nil => exact blames_unascribed _
  | cons => trivial

theorem blamed_top : Blamed name top := by
  intro s _
  unfold top
  cases s.stack with
  | nil => exact blames_unascribed _
  | cons => trivial

theorem blamed_register (r : Text) : Blamed name (register r) := by
  intro s _
  unfold register
  cases s.registers.find? r <;> trivial

theorem blamed_existingRegister (r : Text) : Blamed name (existingRegister r) := by
  intro s _
  unfold existingRegister
  cases s.registers.find? r with
  | some => trivial
  | none => exact blames_unascribed _

theorem blamed_array (a : Text) : Blamed name (array a) := by
  intro s _
  unfold array
  cases s.arrays.find? a <;> trivial

theorem blamed_existingArray (a : Text) : Blamed name (existingArray a) := by
  intro s _
  unfold existingArray
  cases s.arrays.find? a with
  | some => trivial
  | none => exact blames_unascribed _

end Store

namespace Cells

variable {name : Text}

theorem blaming_store (cells : Cells) (index : Int) (v : Value) :
    Blaming name (cells.store index v) := by
  have unblamed : (Failure.of (.negativeIndex index)).Blames name := blames_unascribed _
  exact .ite (.error unblamed) (.ok _)

theorem blaming_fetch (cells : Cells) (index : Int) (a : Text) :
    Blaming name (cells.fetch index a) := by
  have unblamed : (Failure.of (.missingElement a index)).Blames name := blames_unascribed _
  unfold fetch
  cases cells.find? index with
  | some v => exact .ok v
  | none => exact .error unblamed

end Cells

namespace Instruction

open Store Value

variable {name : Text}

theorem blamed_pure (r : Response) : Blamed name (pure r : Calculation Response) := .pure r

theorem Blamed.ite {α : Type} {p : Prop} [Decidable p] {c c' : Calculation α} (h : Blamed name c)
    (h' : Blamed name c') : Blamed name (if p then c else c') := by
  split
  · exact h
  · exact h'

theorem blamed_popInt (rule : Text) : Blamed rule (popInt rule) :=
  blamed_pop.bind fun _ => blamed_attempt (blaming_toInt rule _)

theorem blamed_pushInt (n : Int) : Blamed name (pushInt n) :=
  (blamed_update _).bind fun _ => blamed_pure _

theorem blamed_performOperator (op : Operator) : Blamed [op.symbol] (performOperator op) :=
  blamed_pop.bind fun _ => blamed_pop.bind fun _ =>
    (blamed_attempt (blaming_operate op _ _)).bind fun _ => (blamed_update _).bind fun _ =>
      blamed_pure _

theorem blamed_performDivMod : Blamed '~' performDivMod :=
  blamed_pop.bind fun _ => blamed_pop.bind fun _ =>
    (blamed_attempt (blaming_divMod _ _)).bind fun (_, _) => (blamed_update _).bind fun _ =>
      (blamed_update _).bind fun _ => blamed_pure _

theorem blamed_performCompare (r : Relation) (turned : Bool) :
    Blamed [r.symbol] (performCompare r turned) :=
  blamed_pop.bind fun _ => blamed_pop.bind fun _ =>
    (blamed_attempt (blaming_compare _ _ _)).bind fun _ => blamed_pure _

theorem blamed_performDump : Blamed 'P' performDump := by
  refine blamed_pop.bind fun v => ?_
  cases v with
  | text => exact blamed_pure _
  | int | float => exact (blamed_attempt (blaming_toCharacter 'P' _)).bind fun _ => blamed_pure _

/-- An instruction that reads an integer and checks it. -/
theorem blamed_set {rule : Text} {p : Int → Prop} [DecidablePred p] {f : Int → Store → Store}
    {r : Response} {cause : Int → Cause} :
    Blamed rule (do
      let n ← popInt rule
      if p n then
        update (f n)
        return r
      else fail (.of (cause n) rule)) :=
  (blamed_popInt rule).bind fun _ =>
    Blamed.ite ((blamed_update _).bind fun _ => blamed_pure _)
      (blamed_fail (blames_of _ (.inr rfl)))

/-- Whatever an instruction has to blame for a fault is itself. -/
theorem blamed_perform {ch : CodePoint} (next : Option Text) (turned : Bool) {i : Instruction}
    (h : ofName [ch] = i) : Blamed [ch] (i.perform next turned) := by
  cases i with
  | blank | comment | numeral | string | call => exact blamed_pure _
  | bang => exact Blamed.ite (blamed_pure _) (blamed_pure _)
  | unimplemented => exact blamed_fail (blames_unascribed _)
  | operate op =>
    obtain rfl : ch = op.symbol := by cases op <;> exact eq_of_sign? h rfl
    exact blamed_performOperator op
  | divMod =>
    obtain rfl := eq_of_sign? h rfl
    exact blamed_performDivMod
  | compare r =>
    obtain rfl : ch = r.symbol := by cases r <;> exact eq_of_sign? h rfl
    exact blamed_performCompare r turned
  | squareRoot =>
    obtain rfl := eq_of_sign? h rfl
    exact blamed_pop.bind fun _ => (blamed_attempt (blaming_sqrt _)).bind fun _ =>
      (blamed_update _).bind fun _ => blamed_pure _
  | character =>
    obtain rfl := eq_of_sign? h rfl
    exact blamed_pop.bind fun _ => (blamed_attempt (blaming_toCharacter 'a' _)).bind fun _ =>
      (blamed_update _).bind fun _ => blamed_pure _
  | clear | quit => exact (blamed_update _).bind fun _ => blamed_pure _
  | duplicate => exact blamed_top.bind fun _ => (blamed_update _).bind fun _ => blamed_pure _
  | swap =>
    exact blamed_pop.bind fun _ => blamed_pop.bind fun _ => (blamed_update _).bind fun _ =>
      (blamed_update _).bind fun _ => blamed_pure _
  | depth | inputBase | outputBase | scale => exact (blamed_read _).bind fun _ => blamed_pushInt _
  | length => exact blamed_pop.bind fun _ => (blamed_read _).bind fun _ => blamed_pushInt _
  | scaleOf =>
    obtain rfl := eq_of_sign? h rfl
    exact blamed_pop.bind fun _ =>
      Blamed.ite (blamed_fail (blames_of _ (.inr rfl))) (blamed_pushInt _)
  | printTop => exact blamed_top.bind fun _ => blamed_pure _
  | printPop => exact blamed_pop.bind fun _ => blamed_pure _
  | printAll => exact (blamed_read _).bind fun _ => blamed_pure _
  | dump =>
    obtain rfl := eq_of_sign? h rfl
    exact blamed_performDump
  | setInputBase | setScale | quitLevels =>
    obtain rfl := eq_of_sign? h rfl
    exact blamed_set
  | setOutputBase =>
    obtain rfl := eq_of_sign? h rfl
    refine (blamed_popInt _).bind fun n => ?_
    split
    · exact (blamed_update _).bind fun _ => blamed_pure _
    · exact blamed_fail (blames_of _ (.inr rfl))
  | load =>
    exact (blamed_existingRegister _).bind fun _ => (blamed_update _).bind fun _ => blamed_pure _
  | store | save =>
    exact blamed_pop.bind fun _ => (blamed_register _).bind fun _ =>
      (blamed_update _).bind fun _ => blamed_pure _
  | restore =>
    exact (blamed_existingRegister _).bind fun _ => (blamed_update _).bind fun _ =>
      (blamed_update _).bind fun _ => blamed_pure _
  | fetchElement =>
    obtain rfl := eq_of_sign? h rfl
    exact (blamed_popInt _).bind fun _ => (blamed_existingArray _).bind fun _ =>
      (blamed_attempt (Cells.blaming_fetch _ _ _)).bind fun _ => (blamed_update _).bind fun _ =>
        blamed_pure _
  | storeElement =>
    obtain rfl := eq_of_sign? h rfl
    exact (blamed_popInt _).bind fun _ => blamed_pop.bind fun _ => (blamed_array _).bind fun _ =>
      (blamed_attempt (Cells.blaming_store _ _ _)).bind fun _ => (blamed_update _).bind fun _ =>
        blamed_pure _

end Instruction

/-- A fault of a built-in instruction is ascribed to it. -/
theorem Overrides.ascribed_builtIn {ch : CodePoint} {next : Option Text} {turned : Bool}
    {s s' : Store} {failure : Failure}
    (h : Overrides.perform {} [ch] next turned s = .error failure s') :
    failure.AscribedTo [ch] := by
  rw [builtIn_perform] at h
  split at h
  · cases h
    rintro f ⟨⟩
    rfl
  · cases performed : (Instruction.ofName [ch]).perform next turned s with
    | ok response t => simp [performed] at h
    | error failure' t =>
      have blamed := (Instruction.blamed_perform next turned rfl).of_error trivial performed
      simp only [performed] at h
      cases h
      exact blamed.ascribe

end DeskCalculator
