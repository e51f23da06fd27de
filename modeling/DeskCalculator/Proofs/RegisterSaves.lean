import DeskCalculator.Proofs.Machine.Performances

/-!
Registers as local variables. Where the saves and the restores of a register are balanced, and it is
set only while one of the saves is open, each restore gives back the value that was installed last at
its level, and in the end the register is what it was at the start, whatever else was done to other
registers, to arrays and by macros in between.
-/

namespace DeskCalculator

/-- A register over which values have been saved, the latest first. -/
def Register.layered (base : Register) : List Value → Register
  | [] => base
  | v :: vs => (base.layered vs).save v

namespace Performance

variable {r : Text} {p q : Performance} {ps ps' : List Performance} {n k : Int}

/-- The saves and the restores of the register `r` are balanced: no part from the start has more
restores than saves, the whole has as many, and the register is only set where more has been saved
than restored before. -/
structure Balanced (r : Text) (ps : List Performance) : Prop where
  before : ∀ earlier, earlier <+: ps →
    earlier.countP (·.does .restore r) ≤ earlier.countP (·.does .save r)
  total : ps.countP (·.does .restore r) = ps.countP (·.does .save r)
  inside : ∀ earlier p, earlier ++ [p] <+: ps → p.does .store r →
    earlier.countP (·.does .restore r) < earlier.countP (·.does .save r)

/-- The value `v` is taken from the stack and becomes the current value of the register `r`. -/
structure Installs (r : Text) (v : Value) (p : Performance) : Prop where
  does : p.does .save r ∨ p.does .store r
  taken : p.before.stack.head? = some v
  current : (p.after.registers.find? r).map (·.value) = some v

/-- A restore of the register `r` leaves on the stack the value that was installed last at its level
among the performances before it. -/
def GivesBack (r : Text) (earlier : List Performance) (p : Performance) : Prop :=
  ∃ outer q inner v, earlier = outer ++ q :: inner ∧ q.Installs r v ∧ Balanced r inner ∧
    p.after.stack = v :: p.before.stack

/-- What a performance does to the register `r`. -/
inductive Touches (r : Text) (p : Performance) : Option Register → Option Register → Prop where
  | save {before : Option Register} {v : Value} (saves : p.does .save r) (installs : p.Installs r v) :
      Touches r p before (some ((before.getD {}).save v))
  | set {before : Option Register} {v : Value} (sets : p.does .store r) (installs : p.Installs r v) :
      Touches r p before (some { before.getD {} with value := v })
  | restore {before : Register} (restores : p.does .restore r)
      (pushed : p.after.stack = before.value :: p.before.stack) :
      Touches r p (some before) (some before.restore)
  | other {before : Option Register} (saves : ¬ p.does .save r) (sets : ¬ p.does .store r)
      (restores : ¬ p.does .restore r) : Touches r p before before

theorem Touches.of_apart {i : Instruction} {name : Text} {reg : Option Register}
    (does : p.does i name) (apart : r ≠ name) : p.Touches r reg reg :=
  .other (fun h => apart (eq_of_does h does).2) (fun h => apart (eq_of_does h does).2)
    fun h => apart (eq_of_does h does).2

theorem Touches.eq_of_other {reg reg' : Option Register} (h : p.Touches r reg reg')
    (saves : ¬ p.does .save r) (sets : ¬ p.does .store r) (restores : ¬ p.does .restore r) :
    reg' = reg := by
  cases h with
  | save h => exact absurd h saves
  | set h => exact absurd h sets
  | restore h => exact absurd h restores
  | other => rfl

/-- A register is only touched by an instruction that names it. -/
theorem Done.touches (done : p.Done) (r : Text) :
    p.Touches r (p.before.memory.register? r) (p.after.memory.register? r) := by
  cases done.writing with
  | nothing reads memory =>
    rw [memory]
    exact .other (fun h => nomatch reads _ _ h) (fun h => nomatch reads _ _ h)
      fun h => nomatch reads _ _ h
  | @store name v does taken memory =>
    by_cases named : r = name
    · subst named
      have left : p.after.memory.register? r = some _ :=
        (congrArg (Memory.register? · r) memory).trans (if_pos rfl)
      rw [left]
      exact .set does { does := .inr does, taken, current := congrArg (Option.map _) left }
    · rw [memory, Memory.register?_setRegister, if_neg named]
      exact .of_apart does named
  | @save name v does taken memory =>
    by_cases named : r = name
    · subst named
      have left : p.after.memory.register? r = some _ :=
        (congrArg (Memory.register? · r) memory).trans (if_pos rfl)
      rw [left]
      exact .save does { does := .inl does, taken, current := congrArg (Option.map _) left }
    · rw [memory, Memory.register?_setRegister, if_neg named]
      exact .of_apart does named
  | @restore name before does found pushed memory =>
    by_cases named : r = name
    · subst named
      rw [memory, Memory.register?_setRegister, if_pos rfl, found]
      exact .restore does pushed
    · rw [memory, Memory.register?_setRegister, if_neg named]
      exact .of_apart does named
  | storeElement does stack read memory =>
    rw [memory]
    exact .other (not_does does (by decide) r) (not_does does (by decide) r)
      (not_does does (by decide) r)

/-- How many more times the register `r` is saved than restored. -/
def surplus (r : Text) (ps : List Performance) : Int :=
  ps.countP (·.does .save r) - ps.countP (·.does .restore r)

theorem surplus_append : surplus r (ps ++ ps') = surplus r ps + surplus r ps' := by
  simp only [surplus, List.countP_append]
  omega

theorem surplus_cons : surplus r (p :: ps) = surplus r [p] + surplus r ps := by
  rw [← surplus_append, List.singleton_append]

theorem surplus_of_save (saves : p.does .save r) : surplus r [p] = 1 := by
  have restores : ¬ p.does .restore r := not_does saves (by decide) r
  simp [surplus, saves, restores]

theorem surplus_of_restore (restores : p.does .restore r) : surplus r [p] = -1 := by
  have saves : ¬ p.does .save r := not_does restores (by decide) r
  simp [surplus, saves, restores]

theorem surplus_of_other (saves : ¬ p.does .save r) (restores : ¬ p.does .restore r) :
    surplus r [p] = 0 := by
  simp [surplus, saves, restores]

/-- When `n` saves of the register `r` are open, they are closed in the end, and those that are made
in between are too. -/
structure Closes (r : Text) (n : Int) (ps : List Performance) : Prop where
  before : ∀ earlier, earlier <+: ps → 0 ≤ n + surplus r earlier
  total : n + surplus r ps = 0
  inside : ∀ earlier p, earlier ++ [p] <+: ps → p.does .store r → 0 < n + surplus r earlier

theorem balanced_iff : Balanced r ps ↔ Closes r 0 ps := by
  constructor
  · rintro ⟨before, total, inside⟩
    refine ⟨fun l h => ?_, ?_, fun l x h sets => ?_⟩ <;> unfold surplus
    · have := before l h
      omega
    · omega
    · have := inside l x h sets
      omega
  · rintro ⟨before, total, inside⟩
    unfold surplus at before total inside
    refine ⟨fun l h => ?_, by omega, fun l x h sets => ?_⟩
    · have := before l h
      omega
    · have := inside l x h sets
      omega

theorem closes_nil : Closes r n [] ↔ n = 0 := by
  constructor
  · intro h
    simpa [surplus] using h.total
  · rintro rfl
    refine ⟨fun l h => ?_, by simp [surplus], fun l x h => ?_⟩
    · simp [List.prefix_nil.mp h, surplus]
    · simp at h

theorem closes_cons : Closes r n (p :: ps) ↔
    0 ≤ n ∧ (p.does .store r → 0 < n) ∧ Closes r (n + surplus r [p]) ps := by
  have empty : surplus r [] = 0 := by simp [surplus]
  constructor
  · rintro ⟨before, total, inside⟩
    refine ⟨by simpa [empty] using before [] List.nil_prefix, fun sets => ?_, ?_, ?_, ?_⟩
    · simpa [empty] using inside [] p ⟨ps, rfl⟩ sets
    · intro l h
      have := before (p :: l) ((List.prefix_cons_inj p).mpr h)
      rw [surplus_cons] at this
      omega
    · rw [surplus_cons] at total
      omega
    · intro l x h sets
      have := inside (p :: l) x ((List.prefix_cons_inj p).mpr h) sets
      rw [surplus_cons] at this
      omega
  · rintro ⟨enough, first, before, total, inside⟩
    refine ⟨fun l h => ?_, ?_, fun l x h sets => ?_⟩
    · cases l with
      | nil => simpa [empty] using enough
      | cons q l =>
        obtain ⟨rfl, further⟩ := List.cons_prefix_cons.mp h
        have := before l further
        rw [surplus_cons]
        omega
    · rw [surplus_cons]
      omega
    · cases l with
      | nil =>
        obtain rfl : x = p := (List.cons_prefix_cons.mp h).1
        simpa [empty] using first sets
      | cons q l =>
        obtain ⟨rfl, further⟩ := List.cons_prefix_cons.mp h
        have := inside l x further sets
        rw [surplus_cons]
        omega

/-- Whether `n` open saves are closed. -/
def closes? (r : Text) : Int → List Performance → Bool
  | n, [] => n == 0
  | n, p :: ps =>
    decide (0 ≤ n) && (!p.does .store r || decide (0 < n)) && closes? r (n + surplus r [p]) ps

theorem closes?_iff : closes? r n ps ↔ Closes r n ps := by
  induction ps generalizing n with
  | nil => rw [closes?, closes_nil, beq_iff_eq]
  | cons p ps ih =>
    rw [closes?, closes_cons, Bool.and_eq_true, Bool.and_eq_true, ih, decide_eq_true_eq, and_assoc]
    cases p.does .store r <;> simp

instance (ps : List Performance) : Decidable (Balanced r ps) :=
  decidable_of_iff _ (closes?_iff.trans balanced_iff.symm)

/-- Saves that are open are closed after what closes further ones. -/
theorem Closes.append (h : Closes r k ps) (h' : Closes r n ps') : Closes r (k + n) (ps ++ ps') := by
  induction ps generalizing k with
  | nil =>
    obtain rfl := closes_nil.mp h
    rwa [Int.zero_add]
  | cons p ps ih =>
    have nonneg : 0 ≤ n := by simpa [surplus] using h'.before [] List.nil_prefix
    obtain ⟨enough, first, rest⟩ := closes_cons.mp h
    refine closes_cons.mpr ⟨by omega, fun sets => ?_, ?_⟩
    · have := first sets
      omega
    · have joined := ih rest
      rwa [Int.add_right_comm] at joined

theorem Balanced.append (h : Balanced r ps) (h' : Balanced r ps') : Balanced r (ps ++ ps') :=
  balanced_iff.mpr ((balanced_iff.mp h).append (balanced_iff.mp h'))

theorem balanced_nil : Balanced r [] := balanced_iff.mpr (closes_nil.mpr rfl)

theorem balanced_of_other (saves : ¬ p.does .save r) (sets : ¬ p.does .store r)
    (restores : ¬ p.does .restore r) : Balanced r [p] := by
  refine balanced_iff.mpr (closes_cons.mpr ⟨Int.le_refl 0, fun h => absurd h sets, ?_⟩)
  rw [surplus_of_other saves restores]
  exact closes_nil.mpr rfl

/-- What leaves one save of the register `r` open as it was. -/
def Within (r : Text) (ps : List Performance) : Prop :=
  ∀ ps', Closes r 1 ps' → Closes r 1 (ps ++ ps')

theorem Balanced.within (h : Balanced r ps) : Within r ps :=
  fun _ closes => (balanced_iff.mp h).append closes

theorem Within.set (h : Within r ps) (sets : p.does .store r) (h' : Within r ps') :
    Within r (ps ++ p :: ps') := by
  intro qs closes
  have saves : ¬ p.does .save r := not_does sets (by decide) r
  have restores : ¬ p.does .restore r := not_does sets (by decide) r
  have rest : Closes r 1 (p :: (ps' ++ qs)) := by
    refine closes_cons.mpr ⟨by decide, fun _ => by decide, ?_⟩
    rw [surplus_of_other saves restores]
    exact h' qs closes
  have all := h _ rest
  rwa [← List.cons_append, ← List.append_assoc] at all

/-- A save, what leaves it open and its restore are balanced. -/
theorem Within.balanced (saves : p.does .save r) (h : Within r ps) (restores : q.does .restore r) :
    Balanced r (p :: ps ++ [q]) := by
  have sets : ¬ p.does .store r := not_does saves (by decide) r
  have sets' : ¬ q.does .store r := not_does restores (by decide) r
  have last : Closes r 1 [q] := by
    refine closes_cons.mpr ⟨by decide, fun h => absurd h sets', ?_⟩
    rw [surplus_of_restore restores]
    exact closes_nil.mpr rfl
  refine balanced_iff.mpr (closes_cons.mpr ⟨Int.le_refl 0, fun h => absurd h sets, ?_⟩)
  rw [surplus_of_save saves]
  exact h _ last

/-- The values that are installed in the register `r` where saves are open, the innermost first. -/
inductive Open (r : Text) : List Performance → List Value → Prop where
  | balanced {ps : List Performance} (balanced : Balanced r ps) : Open r ps []
  | save {ps ps' : List Performance} {p : Performance} {v : Value} {vs : List Value}
      (outer : Open r ps vs) (saves : p.does .save r) (installs : p.Installs r v)
      (inner : Balanced r ps') : Open r (ps ++ p :: ps') (v :: vs)
  | set {ps ps' : List Performance} {p : Performance} {v w : Value} {vs : List Value}
      (outer : Open r ps (w :: vs)) (sets : p.does .store r) (installs : p.Installs r v)
      (inner : Balanced r ps') : Open r (ps ++ p :: ps') (v :: vs)

namespace Open

variable {v w : Value} {vs : List Value}

theorem append (h : Open r ps vs) (h' : Balanced r ps') : Open r (ps ++ ps') vs := by
  cases h with
  | balanced balanced => exact .balanced (balanced.append h')
  | save outer saves installs inner =>
    rw [List.append_assoc, List.cons_append]
    exact .save outer saves installs (inner.append h')
  | set outer sets installs inner =>
    rw [List.append_assoc, List.cons_append]
    exact .set outer sets installs (inner.append h')

/-- The value that is installed innermost was installed last at its level. -/
theorem installed (h : Open r ps (v :: vs)) :
    ∃ outer q inner, ps = outer ++ q :: inner ∧ q.Installs r v ∧ Balanced r inner := by
  cases h with
  | save outer saves installs inner => exact ⟨_, _, _, rfl, installs, inner⟩
  | set outer sets installs inner => exact ⟨_, _, _, rfl, installs, inner⟩

/-- The innermost of the saves that are open. -/
theorem innermost (h : Open r ps (v :: vs)) :
    ∃ outer q inner, ps = outer ++ q :: inner ∧ Open r outer vs ∧ q.does .save r ∧
      Within r inner := by
  generalize values : v :: vs = ws at h
  induction h generalizing v with
  | balanced => cases values
  | save outer saves installs inner =>
    cases values
    exact ⟨_, _, _, rfl, outer, saves, inner.within⟩
  | @set ps ps' p v' w vs' outer sets installs inner ih =>
    cases values
    obtain ⟨below, q, above, rfl, opened, saves, within⟩ := ih rfl
    refine ⟨below, q, above ++ p :: ps', ?_, opened, saves, within.set sets inner.within⟩
    rw [List.append_assoc, List.cons_append]

theorem restore (h : Open r ps (v :: vs)) (restores : p.does .restore r) :
    Open r (ps ++ [p]) vs := by
  obtain ⟨outer, q, inner, rfl, opened, saves, within⟩ := h.innermost
  have closed := opened.append (within.balanced saves restores)
  rwa [List.cons_append, ← List.cons_append, ← List.append_assoc] at closed

theorem saved (h : Open r ps (v :: vs)) : ps.any (·.does .save r) := by
  obtain ⟨outer, q, inner, rfl, -, saves, -⟩ := h.innermost
  simp [saves]

end Open

/-- After some performances the values that are installed lie over the register as it was at the
start. Once it has been saved it exists. -/
structure Standing (r : Text) (start : Option Register) (ps : List Performance) (vs : List Value)
    (now : Option Register) : Prop where
  opened : Open r ps vs
  register : now = if ps.any (·.does .save r) then some ((start.getD {}).layered vs) else start

namespace Standing

variable {start now : Option Register} {v : Value} {vs : List Value}

theorem getD (h : Standing r start ps vs now) : now.getD {} = (start.getD {}).layered vs := by
  rw [h.register]
  split
  · rfl
  · rename_i unsaved
    cases vs with
    | nil => rfl
    | cons v vs => exact absurd h.opened.saved unsaved

theorem begin (r : Text) (reg : Option Register) : Standing r reg [] [] reg :=
  ⟨.balanced balanced_nil, rfl⟩

theorem step {later : Option Register} (h : Standing r start ps vs now)
    (closes : Closes r vs.length (p :: ps')) (touches : p.Touches r now later) :
    (∃ vs', Standing r start (ps ++ [p]) vs' later ∧ Closes r vs'.length ps') ∧
      (p.does .restore r → GivesBack r ps p) := by
  obtain ⟨-, first, rest⟩ := closes_cons.mp closes
  have layers := h.getD
  cases touches with
  | @save _ v saves installs =>
    refine ⟨⟨v :: vs, ⟨.save h.opened saves installs balanced_nil, ?_⟩, ?_⟩, fun restores => ?_⟩
    · rw [layers, if_pos (by simp [saves])]
      rfl
    · rwa [surplus_of_save saves] at rest
    · exact absurd restores (not_does saves (by decide) r)
  | @set _ v sets installs =>
    have saves : ¬ p.does .save r := not_does sets (by decide) r
    have restores : ¬ p.does .restore r := not_does sets (by decide) r
    refine ⟨?_, fun h => absurd h restores⟩
    cases vs with
    | nil =>
      -- Where no save is open the register is not set.
      exact absurd (first sets) (by decide)
    | cons w vs =>
      refine ⟨v :: vs, ⟨.set h.opened sets installs balanced_nil, ?_⟩, ?_⟩
      · have saved := h.opened.saved
        rw [layers, if_pos (by simp [saved])]
        rfl
      · rwa [surplus_of_other saves restores, Int.add_zero] at rest
  | @restore before restores pushed =>
    rw [surplus_of_restore restores] at rest
    cases vs with
    | nil =>
      -- There would be one more restore than saves.
      exact absurd (rest.before [] List.nil_prefix) (by simp [surplus])
    | cons w vs =>
      have same : before = (start.getD {}).layered (w :: vs) := layers
      subst same
      refine ⟨⟨vs, ⟨h.opened.restore restores, ?_⟩, ?_⟩, fun _ => ?_⟩
      · have saved := h.opened.saved
        rw [if_pos (by simp [saved])]
        rfl
      · have less : ((w :: vs).length : Int) + -1 = vs.length := by
          rw [List.length_cons]
          omega
        rwa [less] at rest
      · obtain ⟨outer, q, inner, split, installs, balanced⟩ := h.opened.installed
        exact ⟨outer, q, inner, w, split, installs, balanced, pushed⟩
  | other saves sets restores =>
    refine ⟨⟨vs, ⟨h.opened.append (balanced_of_other saves sets restores), ?_⟩, ?_⟩,
      fun h => absurd h restores⟩
    · rw [h.register]
      simp [saves]
    · rwa [surplus_of_other saves restores, Int.add_zero] at rest

theorem run {mem mem' : Memory} (linked : Linked mem ps' mem')
    (h : Standing r start ps vs (mem.register? r)) (closes : Closes r vs.length ps') :
    Standing r start (ps ++ ps') [] (mem'.register? r) ∧
      ∀ earlier p later, ps' = earlier ++ p :: later → p.does .restore r →
        GivesBack r (ps ++ earlier) p := by
  -- By induction on what is still to come. What has been done is carried along as `ps`, so that each
  -- restore is told by everything before it.
  induction linked generalizing ps vs with
  | nil mem =>
    have none : vs = [] := by simpa using closes_nil.mp closes
    subst none
    rw [List.append_nil]
    exact ⟨h, fun earlier p later split => by simp at split⟩
  | @cons p ps' mem done linked ih =>
    obtain ⟨⟨vs', next, rest⟩, first⟩ := h.step closes (done.touches r)
    obtain ⟨finish, further⟩ := ih next rest
    rw [List.append_assoc] at finish
    refine ⟨finish, fun earlier q later split restores => ?_⟩
    cases earlier with
    | nil =>
      obtain ⟨rfl, -⟩ := List.cons.inj split
      rw [List.append_nil]
      exact first restores
    | cons p' earlier =>
      obtain ⟨rfl, tails⟩ := List.cons.inj split
      have back := further earlier q later tails restores
      rwa [List.append_assoc] at back

end Standing

end Performance

namespace Machine

open Performance

/-- Where the saves and the restores of a register are balanced among the instructions that some steps
perform, and it is set only while a save is open, it is in the end as it was at the start, and one
that there was not is new. Each restore gives back the value installed last at its level. What does
not name the register, or does something else with its name, never changes it. -/
theorem saves_undone (host : Host) (calling : Calling) (k : Nat) (m : Machine) (r : Text)
    (balanced : Balanced r (performances host calling k m)) :
    let ps := performances host calling k m
    (leftState (steps host calling k m)).store.registers.find? r =
        (if ps.any (·.does .save r) then some ((m.store.registers.find? r).getD {})
          else m.store.registers.find? r) ∧
      (∀ earlier p later, ps = earlier ++ p :: later → p.does .restore r → GivesBack r earlier p) ∧
      ∀ m' : Machine,
        (∀ p ∈ m'.performed? host, ¬ p.does .save r ∧ ¬ p.does .store r ∧ ¬ p.does .restore r) →
          (leftState (step host calling m')).store.registers.find? r =
            m'.store.registers.find? r := by
  intro ps
  have closes : Closes r ([] : List Value).length ps := balanced_iff.mp balanced
  obtain ⟨finish, back⟩ := (Standing.begin r _).run (linked_of_steps host calling k m) closes
  refine ⟨finish.register, back, fun m' apart => ?_⟩
  refine memory_part_of_step (f := (Memory.register? · r)) host calling m' fun p performed => ?_
  obtain ⟨saves, sets, restores⟩ := apart p performed
  exact ((done_of_performed performed).2.touches r).eq_of_other saves sets restores

/-- A macro that uses a register its caller uses too, each of them for a value of its own. -/
theorem saves_undone_nested :
    let x := Text.ofString "x"
    let registers : Table Text Register := ({} : Table Text Register).insert x ⟨.int 1, [.int 2]⟩
    let source := Text.ofString "3Sx[4Sx9sx7sy1 0:xLx]x5sxLx"
    let m : Machine := { store := { registers }, frames := [Frame.ofText [] source] }
    Balanced x (performances {} .flat 30 m) ∧
      (leftState (steps {} .flat 30 m)).store.stack = [.int 5, .int 9] ∧
      (leftState (steps {} .flat 30 m)).store.registers.find? x = some ⟨.int 1, [.int 2]⟩ := by
  intro x registers source m
  have balanced : Balanced x (performances {} .flat 30 m) := by decide +kernel
  have restored := (saves_undone {} .flat 30 m x balanced).1
  refine ⟨balanced, by decide +kernel, restored.trans ?_⟩
  decide +kernel

end Machine

end DeskCalculator
