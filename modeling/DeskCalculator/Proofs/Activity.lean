import DeskCalculator.Store.Basic

/-!
Activities seen through a part of their state. An activity *keeps* what it never changes, *commutes*
with a change of the state that it neither sees nor undoes, and two activities *agree* through a view
when states that look the same lead to the same answer and to states that look the same again. What
an activity *answers* is what may come out of it when it does not fail, and it *upholds* what is true
of its states from then on; what it *secures* is true unless it fails, and then something else is. An
activity *follows* another that it does like from related states, and is *stable* when it follows
itself. Each notion goes through sequencing, so a long activity has it as soon as its parts have it.
-/

namespace DeskCalculator

variable {ε σ τ α β : Type}

theorem bind_apply (x : EStateM ε σ α) (g : α → EStateM ε σ β) (s : σ) :
    (x >>= g) s = match x s with
      | .ok a s => g a s
      | .error e s => .error e s := rfl

theorem bind_ok {x : EStateM ε σ α} {s t : σ} {a : α} (h : x s = .ok a t)
    (g : α → EStateM ε σ β) : (x >>= g) s = g a t := by
  rw [bind_apply, h]

theorem bind_error {x : EStateM ε σ α} {s t : σ} {e : ε} (h : x s = .error e t)
    (g : α → EStateM ε σ β) : (x >>= g) s = .error e t := by
  rw [bind_apply, h]

theorem bind_eq_ok {x : EStateM ε σ α} {g : α → EStateM ε σ β} {s s' : σ} {b : β} :
    (x >>= g) s = .ok b s' ↔ ∃ a t, x s = .ok a t ∧ g a t = .ok b s' := by
  rw [bind_apply]
  cases hx : x s with
  | error e t =>
    constructor
    · intro h
      cases h
    · rintro ⟨a, t, h, -⟩
      cases h
  | ok a t =>
    constructor
    · intro h
      exact ⟨a, t, rfl, h⟩
    · rintro ⟨_, _, h, h'⟩
      cases h
      exact h'

theorem bind_eq_error {x : EStateM ε σ α} {g : α → EStateM ε σ β} {s s' : σ} {e : ε} :
    (x >>= g) s = .error e s' ↔
      x s = .error e s' ∨ ∃ a t, x s = .ok a t ∧ g a t = .error e s' := by
  rw [bind_apply]
  cases hx : x s with
  | error e' t =>
    constructor
    · rintro ⟨⟩
      exact .inl rfl
    · rintro (⟨⟨⟩⟩ | ⟨a, t, h, -⟩)
      · rfl
      · cases h
  | ok a t =>
    constructor
    · intro h
      exact .inr ⟨a, t, rfl, h⟩
    · rintro (h | ⟨_, _, h, h'⟩)
      · cases h
      · cases h
        exact h'

/-- The state that an activity leaves, whether it has failed or not. -/
def leftState : EStateM.Result ε σ α → σ
  | .ok _ s => s
  | .error _ s => s

/-- An answer with its state seen through `f`. -/
def through (f : σ → τ) : EStateM.Result ε σ α → EStateM.Result ε τ α
  | .ok a s => .ok a (f s)
  | .error e s => .error e (f s)

@[simp] theorem through_ok (f : σ → τ) (a : α) (s : σ) :
    through f (.ok a s : EStateM.Result ε σ α) = .ok a (f s) := rfl

@[simp] theorem through_error (f : σ → τ) (e : ε) (s : σ) :
    through f (.error e s : EStateM.Result ε σ α) = .error e (f s) := rfl

/-- Answers that look the same are the same but for the state. -/
theorem cases_of_through_eq {f : σ → τ} {r r' : EStateM.Result ε σ α}
    (h : through f r = through f r') :
    (∃ a s t, r = .ok a s ∧ r' = .ok a t ∧ f s = f t) ∨
      ∃ e s t, r = .error e s ∧ r' = .error e t ∧ f s = f t := by
  cases r with
  | ok a s =>
    cases r' with
    | ok b t =>
      obtain ⟨rfl, same⟩ : a = b ∧ f s = f t := by simpa using h
      exact .inl ⟨a, s, t, rfl, rfl, same⟩
    | error e t => simp at h
  | error e s =>
    cases r' with
    | ok b t => simp at h
    | error e' t =>
      obtain ⟨rfl, same⟩ : e = e' ∧ f s = f t := by simpa using h
      exact .inr ⟨e, s, t, rfl, rfl, same⟩

def Keeps (f : σ → τ) (x : EStateM ε σ α) : Prop := ∀ s, f (leftState (x s)) = f s

namespace Keeps

variable {f : σ → τ}

theorem pure (a : α) : Keeps f (Pure.pure a : EStateM ε σ α) := fun _ => rfl

theorem bind {x : EStateM ε σ α} {g : α → EStateM ε σ β} (hx : Keeps f x)
    (hg : ∀ a, Keeps f (g a)) : Keeps f (x >>= g) := by
  intro s
  have h := hx s
  rw [bind_apply]
  cases hs : x s with
  | error e s' => simpa [hs, leftState] using h
  | ok a s' =>
    rw [hs] at h
    exact (hg a s').trans h

theorem ite {p : Prop} [Decidable p] {x y : EStateM ε σ α} (hx : Keeps f x) (hy : Keeps f y) :
    Keeps f (if p then x else y) := by
  split
  · exact hx
  · exact hy

/-- What is not changed at all is not changed in any part. -/
theorem part {x : EStateM ε σ α} (hx : Keeps id x) : Keeps f x := fun s => congrArg f (hx s)

theorem of_ok {x : EStateM ε σ α} (hx : Keeps f x) {s s' : σ} {a : α} (h : x s = .ok a s') :
    f s' = f s := by
  simpa [h, leftState] using hx s

theorem of_error {x : EStateM ε σ α} (hx : Keeps f x) {s s' : σ} {e : ε} (h : x s = .error e s') :
    f s' = f s := by
  simpa [h, leftState] using hx s

end Keeps

def Answers (P : α → Prop) (x : EStateM ε σ α) : Prop := ∀ s a s', x s = .ok a s' → P a

namespace Answers

theorem pure {P : α → Prop} {a : α} (h : P a) : Answers P (Pure.pure a : EStateM ε σ α) := by
  intro s b s' hb
  cases hb
  exact h

theorem bind {P : β → Prop} {x : EStateM ε σ α} {g : α → EStateM ε σ β}
    (hg : ∀ a, Answers P (g a)) : Answers P (x >>= g) := by
  intro s b s' h
  obtain ⟨a, t, -, ha⟩ := bind_eq_ok.mp h
  exact hg a t b s' ha

theorem ite {P : α → Prop} {p : Prop} [Decidable p] {x y : EStateM ε σ α} (hx : Answers P x)
    (hy : Answers P y) : Answers P (if p then x else y) := by
  split
  · exact hx
  · exact hy

end Answers

def Commutes (f : σ → σ) (x : EStateM ε σ α) : Prop := ∀ s, x (f s) = through f (x s)

namespace Commutes

variable {f : σ → σ}

theorem pure (a : α) : Commutes f (Pure.pure a : EStateM ε σ α) := fun _ => rfl

theorem bind_at {x : EStateM ε σ α} {g : α → EStateM ε σ β} {s : σ}
    (hx : x (f s) = through f (x s)) (hg : ∀ a, Commutes f (g a)) :
    (x >>= g) (f s) = through f ((x >>= g) s) := by
  rw [bind_apply, bind_apply, hx]
  cases x s with
  | error e s' => rfl
  | ok a s' => exact hg a s'

theorem bind {x : EStateM ε σ α} {g : α → EStateM ε σ β} (hx : Commutes f x)
    (hg : ∀ a, Commutes f (g a)) : Commutes f (x >>= g) := fun s => bind_at (hx s) hg

end Commutes

def Agree (f : σ → τ) (x y : EStateM ε σ α) : Prop :=
  ∀ s t, f s = f t → through f (x s) = through f (y t)

namespace Agree

variable {f : σ → τ}

theorem pure (a : α) : Agree f (Pure.pure a : EStateM ε σ α) (Pure.pure a) :=
  fun _ _ h => congrArg (EStateM.Result.ok a) h

theorem bind {x y : EStateM ε σ α} {g g' : α → EStateM ε σ β} (hx : Agree f x y)
    (hg : ∀ a, Agree f (g a) (g' a)) : Agree f (x >>= g) (y >>= g') := by
  intro s t h
  obtain ⟨a, s', t', hs, ht, h'⟩ | ⟨e, s', t', hs, ht, h'⟩ := cases_of_through_eq (hx s t h)
  · rw [bind_ok hs, bind_ok ht]
    exact hg a s' t' h'
  · rw [bind_error hs, bind_error ht]
    exact congrArg (EStateM.Result.error e) h'

end Agree

/-- `x` leaves `P` true whether it fails or not, and answers with `Q` when it does not. -/
def Upholds (P : σ → Prop) (Q : α → Prop) (x : EStateM ε σ α) : Prop :=
  ∀ s, P s → P (leftState (x s)) ∧ ∀ a s', x s = .ok a s' → Q a

/-- `x` leaves `P` true. -/
abbrev Preserves (P : σ → Prop) (x : EStateM ε σ α) : Prop := Upholds P (fun _ => True) x

namespace Upholds

variable {P : σ → Prop} {Q : α → Prop}

theorem of_ok {x : EStateM ε σ α} (hx : Upholds P Q x) {s s' : σ} {a : α} (hs : P s)
    (h : x s = .ok a s') : P s' := by
  simpa [h, leftState] using (hx s hs).1

theorem of_error {x : EStateM ε σ α} (hx : Upholds P Q x) {s s' : σ} {e : ε} (hs : P s)
    (h : x s = .error e s') : P s' := by
  simpa [h, leftState] using (hx s hs).1

theorem pure {a : α} (h : Q a) : Upholds P Q (Pure.pure a : EStateM ε σ α) := by
  intro s hs
  refine ⟨hs, fun b s' answered => ?_⟩
  cases answered
  exact h

theorem bind {R : β → Prop} {x : EStateM ε σ α} {g : α → EStateM ε σ β} (hx : Upholds P Q x)
    (hg : ∀ a, Q a → Upholds P R (g a)) : Upholds P R (x >>= g) := by
  intro s hs
  obtain ⟨left, answers⟩ := hx s hs
  rw [bind_apply]
  cases h : x s with
  | error e t =>
    rw [h] at left
    exact ⟨left, fun b s' answered => by cases answered⟩
  | ok a t =>
    rw [h] at left
    exact hg a (answers a t h) t left

theorem ite {p : Prop} [Decidable p] {x y : EStateM ε σ α} (hx : p → Upholds P Q x)
    (hy : ¬ p → Upholds P Q y) : Upholds P Q (if p then x else y) := by
  split
  · exact hx ‹_›
  · exact hy ‹_›

end Upholds

/-- `x` leaves `P` true when it does not fail, and `E` when it does. -/
def Secures (P : σ → Prop) (E : ε → σ → Prop) (x : EStateM ε σ α) : Prop :=
  ∀ s, P s → match x s with
    | .ok _ s' => P s'
    | .error e s' => E e s'

namespace Secures

variable {P : σ → Prop} {E : ε → σ → Prop}

theorem of_error {x : EStateM ε σ α} (hx : Secures P E x) {s s' : σ} {e : ε} (hs : P s)
    (h : x s = .error e s') : E e s' := by
  simpa [h] using hx s hs

theorem pure (a : α) : Secures P E (Pure.pure a : EStateM ε σ α) := fun _ hs => hs

theorem bind {x : EStateM ε σ α} {g : α → EStateM ε σ β} (hx : Secures P E x)
    (hg : ∀ a, Secures P E (g a)) : Secures P E (x >>= g) := by
  intro s hs
  have first := hx s hs
  rw [bind_apply]
  cases h : x s with
  | error e t =>
    rw [h] at first
    exact first
  | ok a t =>
    rw [h] at first
    exact hg a t first

end Secures

/-- What is left true whether an activity fails or not is secured, if a failure needs no more. -/
theorem Upholds.secures {P : σ → Prop} {E : ε → σ → Prop} {Q : α → Prop} {x : EStateM ε σ α}
    (hx : Upholds P Q x) (enough : ∀ e s, P s → E e s) : Secures P E x := by
  intro s hs
  have left := (hx s hs).1
  cases h : x s with
  | error e t =>
    rw [h] at left
    exact enough e t left
  | ok a t =>
    rw [h] at left
    exact left

/-- What is true of a part that an activity keeps stays true. -/
theorem Keeps.preserves {f : σ → τ} {x : EStateM ε σ α} (hx : Keeps f x) (P : τ → Prop) :
    Preserves (fun s => P (f s)) x :=
  fun s hs => ⟨(congrArg P (hx s)).mpr hs, fun _ _ _ => trivial⟩

/-- An answer that goes with another: the answers are related by `q` and the states by `r`, or both
fail alike. With a failure that is `lost`, anything goes. -/
inductive Matches (lost : ε → Prop) (q : α → β → Prop) (r : σ → τ → Prop) :
    EStateM.Result ε σ α → EStateM.Result ε τ β → Prop where
  | ok {a : α} {b : β} {s : σ} {t : τ} (answers : q a b) (states : r s t) :
      Matches lost q r (.ok a s) (.ok b t)
  | error {e : ε} {s : σ} {t : τ} (states : r s t) : Matches lost q r (.error e s) (.error e t)
  | lost {e : ε} {s : σ} {y : EStateM.Result ε τ β} (failure : lost e) :
      Matches lost q r (.error e s) y

def Follows (lost : ε → Prop) (q : α → β → Prop) (r : σ → τ → Prop) (x : EStateM ε σ α)
    (y : EStateM ε τ β) : Prop :=
  ∀ s t, r s t → Matches lost q r (x s) (y t)

/-- `x` does the same from related states. -/
def Stable (lost : ε → Prop) (r : σ → σ → Prop) (x : EStateM ε σ α) : Prop :=
  Follows lost (· = ·) r x x

section following
variable {α' β' : Type} {lost : ε → Prop} {p : α → β → Prop} {q : α' → β' → Prop}
  {r : σ → τ → Prop}

/-- What goes with a success is a success. -/
theorem Matches.of_ok {a : α} {s : σ} {y : EStateM.Result ε τ β} (h : Matches lost p r (.ok a s) y) :
    ∃ b t, y = .ok b t ∧ p a b ∧ r s t := by
  cases h with
  | ok answers states => exact ⟨_, _, rfl, answers, states⟩

theorem Matches.bind {x : EStateM ε σ α} {y : EStateM ε τ β} {g : α → EStateM ε σ α'}
    {g' : β → EStateM ε τ β'} {s : σ} {t : τ} (hx : Matches lost p r (x s) (y t))
    (hg : ∀ a b, p a b → Follows lost q r (g a) (g' b)) :
    Matches lost q r ((x >>= g) s) ((y >>= g') t) := by
  rw [bind_apply, bind_apply]
  generalize x s = first at hx
  generalize y t = second at hx
  cases hx with
  | ok answers states => exact hg _ _ answers _ _ states
  | error states => exact .error states
  | lost failure => exact .lost failure

theorem Follows.bind {x : EStateM ε σ α} {y : EStateM ε τ β} {g : α → EStateM ε σ α'}
    {g' : β → EStateM ε τ β'} (hx : Follows lost p r x y)
    (hg : ∀ a b, p a b → Follows lost q r (g a) (g' b)) :
    Follows lost q r (x >>= g) (y >>= g') :=
  fun s t h => (hx s t h).bind hg

/-- What is known of the answers is known of those that go with others. -/
theorem Follows.answers {P : α → Prop} {x : EStateM ε σ α} {y : EStateM ε τ β}
    (hxy : Follows lost p r x y) (hx : Answers P x) :
    Follows lost (fun a b => p a b ∧ P a) r x y := by
  intro s t h
  have matched := hxy s t h
  have answers := hx s
  generalize x s = first at matched answers
  generalize y t = second at matched
  cases matched with
  | ok same states => exact .ok ⟨same, answers _ _ rfl⟩ states
  | error states => exact .error states
  | lost failure => exact .lost failure

theorem Follows.pure {a : α'} {b : β'} (h : q a b) :
    Follows lost q r (Pure.pure a : EStateM ε σ α') (Pure.pure b : EStateM ε τ β') :=
  fun _ _ states => .ok h states

end following

namespace Stable

variable {lost : ε → Prop} {r : σ → σ → Prop}

theorem pure (a : α) : Stable lost r (Pure.pure a : EStateM ε σ α) := Follows.pure rfl

theorem bind {x : EStateM ε σ α} {g : α → EStateM ε σ β} (hx : Stable lost r x)
    (hg : ∀ a, Stable lost r (g a)) : Stable lost r (x >>= g) :=
  Follows.bind hx fun a b same => by
    subst same
    exact hg a

theorem ite {p : Prop} [Decidable p] {x y : EStateM ε σ α} (hx : Stable lost r x)
    (hy : Stable lost r y) : Stable lost r (if p then x else y) := by
  split
  · exact hx
  · exact hy

end Stable

theorem Commutes.stable {f : σ → σ} {x : EStateM ε σ α} (hx : Commutes f x) (lost : ε → Prop) :
    Stable lost (fun s t => t = f s) x := by
  rintro s t rfl
  rw [hx s]
  cases x s with
  | ok a s' => exact .ok rfl rfl
  | error e s' => exact .error rfl

theorem Stable.commutes {f : σ → σ} {x : EStateM ε σ α}
    (hx : Stable (fun _ => False) (fun s t => t = f s) x) : Commutes f x := by
  intro s
  have alike := hx s (f s) rfl
  generalize x s = first at alike
  generalize x (f s) = second at alike
  cases alike with
  | ok answers states => rw [← answers, states, through_ok]
  | error states => rw [states, through_error]
  | lost failure => exact failure.elim

end DeskCalculator
