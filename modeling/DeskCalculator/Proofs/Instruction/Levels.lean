import DeskCalculator.Proofs.Instruction.Actions
import DeskCalculator.Proofs.Instruction.Congruence

/-!
The levels that a quit ends. A quit sets the number of levels left to unwind, and no other
instruction sees that number or changes it.
-/

namespace DeskCalculator

/-- A store with another number of levels to end. -/
def Store.setUnwind (u : Int) (s : Store) : Store := { s with unwind := u }

namespace Store

variable {α : Type} {u : Int}

theorem congruence_setUnwind (u : Int) :
    Congruence (fun _ => False) fun s t => t = s.setUnwind u := by
  have reshaped : Congruence (fun _ => False) fun s t => t = s.reshape id fun _ => u :=
    congruence_reshape (fun _ _ => rfl) (.inl rfl)
  exact reshaped

theorem commutes_fail (failure : Failure) :
    Commutes (setUnwind u) (fail failure : Calculation α) := fun _ => rfl

theorem commutes_read {f : Store → α} (h : ∀ s, f (s.setUnwind u) = f s) :
    Commutes (setUnwind u) (read f) := by
  intro s
  rw [read, read, h, through_ok]

theorem commutes_push (v : Value) : Commutes (setUnwind u) (push v) := fun _ => rfl

theorem commutes_pop : Commutes (setUnwind u) pop := (congruence_setUnwind u).pop.commutes

theorem commutes_clear : Commutes (setUnwind u) clear := fun _ => rfl

theorem commutes_existingRegister (name : Text) :
    Commutes (setUnwind u) (existingRegister name) :=
  ((congruence_setUnwind u).existingRegister name).commutes

end Store

namespace Instruction

variable {u : Int}

open Store

theorem commutes_pushInt (n : Int) : Commutes (setUnwind u) (pushInt n) :=
  (commutes_push _).bind fun _ => .pure _

/-- Only a quit sees or sets the levels to end. -/
theorem commutes_perform (next : Option Text) (turned : Bool) {i : Instruction}
    (hq : i ≠ .quit) (hQ : i ≠ .quitLevels) : Commutes (setUnwind u) (i.perform next turned) := by
  refine (stable_perform (congruence_setUnwind u) next turned fun global => ?_).commutes
  cases i with
  | clear => exact (commutes_clear.bind fun _ => .pure _).stable _
  | depth => exact ((commutes_read fun _ => rfl).bind fun _ => commutes_pushInt _).stable _
  | printAll => exact ((commutes_read fun _ => rfl).bind fun _ => .pure _).stable _
  | quit => exact absurd rfl hq
  | quitLevels => exact absurd rfl hQ
  | _ => cases global

/-- How many levels an instruction ends, if it is a quit that succeeds. -/
def levels? (s : Store) : Instruction → Option Int
  | quit => some 2
  | quitLevels =>
    match s.stack with
    | [] => none
    | v :: _ =>
      match v.toInt 'Q' with
      | .ok n => if 0 < n then some n else none
      | .error _ => none
  | _ => none

/-- Only the characters `q` and `Q` are quits. -/
theorem quit_of_levels? {ch : CodePoint} {s : Store} {n : Int}
    (h : (ofName [ch]).levels? s = some n) : ch = .scalar 'q' ∨ ch = .scalar 'Q' := by
  cases hi : ofName [ch] with
  | quit => exact .inl (eq_of_sign? hi rfl)
  | quitLevels => exact .inr (eq_of_sign? hi rfl)
  | _ => simp [hi, levels?] at h

/-- The stack that a quit leaves: the number of levels is taken from it. -/
def unpaid (stack : List Value) : Instruction → List Value
  | quitLevels => stack.tail
  | _ => stack

theorem levels?_pos {s : Store} {i : Instruction} {n : Int} (h : i.levels? s = some n) :
    0 < n := by
  cases i with
  | quit =>
    cases h
    decide
  | quitLevels =>
    simp only [levels?] at h
    cases hs : s.stack with
    | nil => simp [hs] at h
    | cons v rest =>
      cases hv : v.toInt 'Q' with
      | error e => simp [hs, hv] at h
      | ok k =>
        simp only [hs, hv, Option.ite_none_right_eq_some, Option.some.injEq] at h
        omega
  | _ => cases h

theorem performQuitLevels_eq (s : Store) :
    performQuitLevels s =
      match s.stack with
      | [] => .error (.of .stackEmpty) s
      | v :: rest =>
        match v.toInt 'Q' with
        | .error failure => .error failure { s with stack := rest }
        | .ok n =>
          if 0 < n then .ok { action := .quit } { s with stack := rest, unwind := n - 1 }
          else .error (.of (.quitLevels n) (some 'Q')) { s with stack := rest } := by
  simp only [performQuitLevels, popInt, pop, attempt, bind_apply]
  cases s.stack with
  | nil => rfl
  | cons v rest =>
    cases hv : v.toInt 'Q' with
    | error failure => simp only [hv]
    | ok n =>
      by_cases pos : 0 < n
      · simp only [hv, if_pos pos]
        rfl
      · simp only [hv, if_neg pos]
        rfl

/-- A quit that succeeds only takes its number and sets the levels that are left. -/
theorem perform_levels (next : Option Text) (turned : Bool) {s : Store} {i : Instruction} {n : Int}
    (h : i.levels? s = some n) :
    i.perform next turned s =
      .ok { action := .quit } { s with stack := i.unpaid s.stack, unwind := n - 1 } := by
  cases i with
  | quit =>
    cases h
    rfl
  | quitLevels =>
    change performQuitLevels s = _
    rw [performQuitLevels_eq]
    simp only [levels?] at h
    cases hs : s.stack with
    | nil => simp [hs] at h
    | cons v rest =>
      cases hv : v.toInt 'Q' with
      | error e => simp [hs, hv] at h
      | ok k =>
        simp only [hs, hv, Option.ite_none_right_eq_some, Option.some.injEq] at h
        obtain ⟨pos, rfl⟩ := h
        simp only [if_pos pos, hv]
        rfl
  | _ => cases h

theorem levels?_setUnwind (s : Store) (i : Instruction) : i.levels? (s.setUnwind u) = i.levels? s := by
  cases i <;> rfl

theorem performQuitLevels_fails {s : Store} (h : quitLevels.levels? s = none) :
    ∃ failure s', performQuitLevels s = .error failure s' ∧
      ∀ u, performQuitLevels (s.setUnwind u) = .error failure (s'.setUnwind u) := by
  simp only [performQuitLevels_eq]
  obtain ⟨stack⟩ := s
  cases stack with
  | nil => exact ⟨_, _, rfl, fun _ => rfl⟩
  | cons v rest =>
    simp only [levels?, setUnwind] at h ⊢
    cases hv : v.toInt 'Q' with
    | error failure => exact ⟨_, _, rfl, fun _ => rfl⟩
    | ok n =>
      have nonpos : ¬ 0 < n := by simpa [hv] using h
      simp only [if_neg nonpos]
      exact ⟨_, _, rfl, fun _ => rfl⟩

/-- An instruction that does not quit neither sees nor sets the levels that are left. -/
theorem perform_setUnwind (next : Option Text) (turned : Bool) {s : Store} {i : Instruction}
    (h : i.levels? s = none) :
    i.perform next turned (s.setUnwind u) = through (setUnwind u) (i.perform next turned s) := by
  cases i with
  | quit => cases h
  | quitLevels =>
    obtain ⟨failure, s', hs, hu⟩ := performQuitLevels_fails h
    change performQuitLevels _ = through _ (performQuitLevels s)
    rw [hs, hu, through_error]
  | _ => exact commutes_perform next turned (by simp) (by simp) s

/-- Only a quit asks to quit. -/
theorem action_ne_quit {next : Option Text} {turned : Bool} {s s' : Store} {i : Instruction}
    {r : Response} (h : i.levels? s = none) (hr : i.perform next turned s = .ok r s') :
    r.action ≠ .quit := by
  intro hq
  have asked : .quit ∈ i.actions next := hq ▸ asks_perform next turned i s r s' hr
  obtain rfl | rfl := quits_of_asks_quit asked
  · cases h
  · obtain ⟨failure, t, failed, -⟩ := performQuitLevels_fails h
    cases failed.symm.trans hr

end Instruction

namespace Overrides

variable {name : Text} {next : Option Text} {turned : Bool} {s : Store}

/-- An instruction that nothing replaces is the built-in one. -/
theorem perform_of_unreplaced {overrides : Overrides} (found : overrides.find? name = none) :
    overrides.perform name next turned = Overrides.perform {} name next turned := by
  simp only [Overrides.perform, found]
  rfl

theorem find?_builtIn {overrides : Overrides} (builtIn : overrides = {}) (name : Text) :
    overrides.find? name = none := by
  rw [builtIn]
  rfl

theorem builtIn_perform (name : Text) (next : Option Text) (turned : Bool) (s : Store) :
    Overrides.perform {} name next turned s =
      if (Instruction.ofName name).needsName ∧ next = none then
        .error (.of (.missingName name) name) s
      else
        match (Instruction.ofName name).perform next turned s with
        | .ok response s => .ok response s
        | .error failure s => .error (failure.ascribe name) s := by
  change (if (Instruction.ofName name).needsName ∧ next = none then _ else _ :
    Calculation Response) s = _
  by_cases missing : (Instruction.ofName name).needsName ∧ next = none
  · rw [if_pos missing]
    exact congrFun (if_pos missing) s
  · rw [if_neg missing]
    exact congrFun (if_neg missing) s

theorem builtIn_levels {n : Int} (h : (Instruction.ofName name).levels? s = some n) :
    Overrides.perform {} name next turned s =
      .ok { action := .quit }
        { s with stack := (Instruction.ofName name).unpaid s.stack, unwind := n - 1 } := by
  have unnamed : (Instruction.ofName name).needsName = false := by
    cases hi : Instruction.ofName name <;> simp_all [Instruction.levels?, Instruction.needsName]
  rw [builtIn_perform, Instruction.perform_levels next turned h]
  simp [unnamed]

theorem builtIn_setUnwind {u : Int} (h : (Instruction.ofName name).levels? s = none) :
    Overrides.perform {} name next turned (s.setUnwind u) =
      through (Store.setUnwind u) (Overrides.perform {} name next turned s) := by
  rw [builtIn_perform, builtIn_perform, Instruction.perform_setUnwind next turned h]
  split
  · rfl
  · cases (Instruction.ofName name).perform next turned s <;> rfl

theorem builtIn_action_ne_quit {s' : Store} {r : Response}
    (h : (Instruction.ofName name).levels? s = none)
    (hr : Overrides.perform {} name next turned s = .ok r s') : r.action ≠ .quit := by
  rw [builtIn_perform] at hr
  split at hr
  · cases hr
  · cases hp : (Instruction.ofName name).perform next turned s with
    | error failure t => simp [hp] at hr
    | ok r' t =>
      rw [hp] at hr
      cases hr
      exact Instruction.action_ne_quit h hp

end Overrides

end DeskCalculator
