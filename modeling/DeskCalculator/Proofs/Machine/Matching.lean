import DeskCalculator.Proofs.Instruction.Congruence
import DeskCalculator.Proofs.Machine.Views

/-!
Machines whose stores are the same in some sense and that have put out the same. For an obliging host
they go on doing so, whatever the host is told and whatever frames they have: an instruction that
goes with another on their stores goes with it on the machines.
-/

namespace DeskCalculator

/-- Whether an effect is output or a command, and not notice of an event. -/
def Effect.isOutput : Effect → Bool
  | wrote _ | ran _ => true
  | emitted .. | handled .. => false

namespace Store

/-- What makes stores the same for a machine. After a failure that is `lost` it does not matter what
comes of the second one. -/
structure Sameness (lost : Failure → Prop) (same : Store → Store → Prop) : Prop extends
    Congruence lost same where
  base_eq : ∀ {s t}, same s t → s.outputBase = t.outputBase
  unwind_eq : ∀ {s t}, same s t → s.unwind = t.unwind
  withUnwind : ∀ {s t} u, same s t → same (s.setUnwind u) (t.setUnwind u)
  ascribe : ∀ {failure} name, lost failure → lost (failure.ascribe name)

theorem stable_eq {α : Type} (lost : Failure → Prop) (c : Calculation α) :
    Stable lost (· = ·) c := by
  rintro s _ rfl
  cases c s with
  | ok a s' => exact .ok rfl rfl
  | error failure s' => exact .error rfl

/-- Equal stores are the same. -/
theorem sameness_eq {lost : Failure → Prop}
    (ascribe : ∀ {failure} name, lost failure → lost (failure.ascribe name)) :
    Sameness lost (· = ·) where
  push _ := stable_eq lost _
  pop := stable_eq lost _
  top := stable_eq lost _
  register _ := stable_eq lost _
  existingRegister _ := stable_eq lost _
  setRegister _ _ := stable_eq lost _
  array _ := stable_eq lost _
  existingArray _ := stable_eq lost _
  setArray _ _ := stable_eq lost _
  inputBase := stable_eq lost _
  outputBase _ := stable_eq lost _
  scale := stable_eq lost _
  setInputBase _ := stable_eq lost _
  setOutputBase _ _ := stable_eq lost _
  setScale _ := stable_eq lost _
  base_eq same := congrArg outputBase same
  unwind_eq same := congrArg unwind same
  withUnwind u same := congrArg (setUnwind u) same
  ascribe := ascribe

end Store

namespace Overrides

variable {lost : Failure → Prop} {same : Store → Store → Prop} {name : Text} {next : Option Text}

/-- What is known of an action that the instruction called `name` has asked for. -/
structure Asked (name : Text) (next : Option Text) (action : Action) : Prop where
  listed : action ∈ (Instruction.ofName name).actions next
  named : (Instruction.ofName name).needsName → next ≠ none

theorem asked_builtIn (name : Text) (next : Option Text) (turned : Bool) :
    Answers (fun response => Asked name next response.action)
      (Overrides.perform {} name next turned) := by
  intro s response s' answered
  rw [builtIn_perform] at answered
  split at answered
  · cases answered
  · rename_i given
    cases performed : (Instruction.ofName name).perform next turned s with
    | error failure t => simp [performed] at answered
    | ok response' t =>
      rw [performed] at answered
      cases answered
      exact {
        listed := Instruction.asks_perform next turned _ s response s' performed
        named := fun needs missing => given ⟨needs, missing⟩ }

/-- The instruction called `name` does what the instruction does. -/
theorem stable_builtIn {turned : Bool} (sameness : Store.Sameness lost same)
    (h : Stable lost same ((Instruction.ofName name).perform next turned)) :
    Stable lost same (Overrides.perform {} name next turned) := by
  intro s t related
  rw [builtIn_perform, builtIn_perform]
  split
  · exact .error related
  · have matched := h s t related
    generalize (Instruction.ofName name).perform next turned s = first at matched
    generalize (Instruction.ofName name).perform next turned t = second at matched
    cases matched with
    | ok answers states => exact .ok answers states
    | error states => exact .error states
    | lost failure => exact .lost (sameness.ascribe name failure)

end Overrides

namespace Machine

/-- What a machine has written and the commands it has given, the latest first. -/
def outputs (m : Machine) : History := m.history.filter Effect.isOutput

/-- Machines with the built-in instructions whose stores are the same, and that have put out the
same. -/
structure Matching (same : Store → Store → Prop) (m n : Machine) : Prop where
  store : same m.store n.store
  builtIn : m.overrides = {}
  builtIn' : n.overrides = {}
  outputs : m.outputs = n.outputs

/-- An activity that never fails, and does nothing but to give notice of events. -/
def Silent (x : Activity Unit) : Prop :=
  ∀ m, ∃ history, x m = .ok () { m with history } ∧ history.filter Effect.isOutput = m.outputs

section silent
variable {x y : Activity Unit} {host : Host}

theorem Silent.bind (hx : Silent x) (hy : Silent y) : Silent (x >>= fun _ => y) := by
  intro m
  obtain ⟨history, done, unseen⟩ := hx m
  obtain ⟨history', done', unseen'⟩ := hy { m with history }
  exact ⟨history', by rw [bind_ok done, done'], unseen'.trans unseen⟩

theorem silent_note {effect : Machine → Effect} (h : ∀ m, (effect m).isOutput = false) :
    Silent (note effect) := by
  intro m
  refine ⟨effect m :: m.history, rfl, ?_⟩
  rw [List.filter_cons_of_neg (by simp [h m])]
  rfl

theorem silent_ask {answer : History → Option Failure} (h : ∀ history, answer history = none) :
    Silent (ask answer) := by
  intro m
  exact ⟨m.history, by simp only [ask, h], rfl⟩

theorem silent_handleAll (event : Event) (handlers : List Handler)
    (h : ∀ handler ∈ handlers, ∀ history, handler.respond history = none) :
    Silent (handleAll event handlers) := by
  induction handlers with
  | nil => exact fun m => ⟨m.history, rfl, rfl⟩
  | cons handler rest ih =>
    exact .bind (.bind (silent_note fun _ => rfl) (silent_ask (h handler List.mem_cons_self)))
      (ih fun handler' mem => h handler' (List.mem_cons_of_mem _ mem))

theorem silent_emit (obliging : host.Obliging) (event : Event) : Silent (emit host event) :=
  .bind (silent_note fun _ => rfl) (silent_handleAll event _ fun _ mem => obliging.handlers mem)

end silent

section following
variable {α β : Type} {lost : Failure → Prop} {same : Store → Store → Prop} {q : α → β → Prop}
  {host : Host}

theorem follows_onStore {c : Calculation α} {c' : Calculation β} (h : Follows lost q same c c') :
    Follows lost q (Matching same) (onStore c) (onStore c') := by
  intro m n matching
  have matched := h _ _ matching.store
  unfold onStore
  generalize c m.store = first at matched
  generalize c' n.store = second at matched
  cases matched with
  | ok answers stores => exact .ok answers { matching with store := stores }
  | error stores => exact .error { matching with store := stores }
  | lost failure => exact .lost failure

theorem follows_silent {x y : Activity Unit} (hx : Silent x) (hy : Silent y) :
    Follows lost (· = ·) (Matching same) x y := by
  intro m n matching
  obtain ⟨history, done, unseen⟩ := hx m
  obtain ⟨history', done', unseen'⟩ := hy n
  rw [done, done']
  exact .ok rfl { matching with outputs := unseen.trans (matching.outputs.trans unseen'.symm) }

theorem stable_note (effect : Effect) : Stable lost (Matching same) (note fun _ => effect) := by
  intro m n matching
  refine .ok rfl { matching with outputs := ?_ }
  have before : m.history.filter Effect.isOutput = n.history.filter Effect.isOutput :=
    matching.outputs
  rw [outputs, outputs, List.filter_cons, List.filter_cons, before]

theorem follows_setFrames (fs gs : List Frame) :
    Follows lost (· = ·) (Matching same) (setFrames fs) (setFrames gs) :=
  fun _ _ matching => .ok rfl { matching with }

theorem follows_record (name : Text) (position position' : Nat) (action : Action) :
    Follows lost (· = ·) (Matching same) (record name position action)
      (record name position' action) :=
  fun _ _ matching => .ok rfl { matching with }

variable (obliging : host.Obliging)
include obliging

theorem stable_command (text : Text) : Stable lost (Matching same) (command host text) :=
  have emits := silent_emit obliging (.command text)
  have asks := silent_ask fun history => obliging.run history text
  (follows_silent emits emits).bind fun _ _ _ =>
    (stable_note _).bind fun _ => follows_silent asks asks

variable (sameness : Store.Sameness lost same)
include sameness

theorem stable_print (p : Print) : Stable lost (Matching same) (print host p) := by
  intro m n matching
  unfold print
  rw [sameness.base_eq matching.store]
  cases printed n.store.outputBase p with
  | error b => exact .error matching
  | ok text =>
    have asks := silent_ask fun history => obliging.write history text
    exact (follows_silent asks asks).bind (fun _ _ _ => stable_note _) m n matching

theorem stable_printAll (prints : List Print) :
    Stable lost (Matching same) (printAll host prints) := by
  induction prints with
  | nil => exact .pure _
  | cons p rest ih => exact (stable_print obliging sameness p).bind fun _ => ih

omit obliging in
theorem stable_ascribing (name : Text) {x : Activity α} (h : Stable lost (Matching same) x) :
    Stable lost (Matching same) (ascribing name x) := by
  intro m n matching
  have matched := h m n matching
  unfold ascribing
  generalize x m = first at matched
  generalize x n = second at matched
  cases matched with
  | ok answers states => exact .ok answers states
  | error states => exact .error states
  | lost failure => exact .lost (sameness.ascribe name failure)

/-- An instruction that goes with another on the stores goes with it on the machines. -/
theorem follows_perform {name : Text} {next next' : Option Text} {turned : Bool}
    (performed : Follows lost (· = ·) same (Overrides.perform {} name next turned)
      (Overrides.perform {} name next' turned)) :
    Follows lost (fun a b => a = b ∧ Overrides.Asked name next a) (Matching same)
      (perform host name next turned) (perform host name next' turned) := by
  have answered := performed.answers (Overrides.asked_builtIn name next turned)
  have responded : Follows lost (fun a b => a = b ∧ Overrides.Asked name next a.action)
      (Matching same) (respond name next turned) (respond name next' turned) := by
    intro m n matching
    rw [respond, respond, matching.builtIn, matching.builtIn']
    exact follows_onStore answered m n matching
  refine Follows.bind responded ?_
  rintro response _ ⟨rfl, asked⟩
  have printed := stable_printAll obliging sameness response.prints
  exact Follows.bind (stable_ascribing sameness name printed) fun _ _ _ => Follows.pure ⟨rfl, asked⟩

end following

end Machine

end DeskCalculator
