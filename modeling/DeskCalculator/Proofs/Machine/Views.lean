import DeskCalculator.Machine.Run
import DeskCalculator.Proofs.Instruction.Levels

/-!
Two views of a machine: without its frames and every count of frames in its journal and its history,
and with another number of levels to unwind. What a machine does for an obliging host shows nothing
of its frames, and nothing but a quit shows or sets the levels.
-/

namespace DeskCalculator

/-- An effect without the number of frames there were. -/
def Effect.unframed : Effect → Effect
  | emitted event _ => emitted event 0
  | handled tag event depth _ => handled tag event depth 0
  | effect => effect

def Entry.unframed (e : Entry) : Entry := { e with frames := 0 }

def Journal.unframed (j : Journal) : Journal := { j with entries := j.entries.map Entry.unframed }

theorem Journal.unframed_record (j : Journal) (frames : Nat) (name : Text) (position : Nat)
    (action : Action) (depth : Nat) :
    (j.record frames name position action depth).unframed =
      j.unframed.record 0 name position action depth := by
  cases h : j.verbose <;> simp [unframed, record, h, Entry.unframed]

/-- A host whose sink, runner and handlers never refuse. -/
structure Host.Obliging (host : Host) : Prop where
  write : ∀ history t, host.write history t = none
  run : ∀ history t, host.run history t = none
  respond : ∀ r ∈ host.hooks.registrations, ∀ history, r.handler.respond history = none

theorem Host.obliging_default : Host.Obliging {} :=
  ⟨fun _ _ => rfl, fun _ _ => rfl, fun _ mem => nomatch mem⟩

theorem Host.Obliging.handlers {host : Host} (h : host.Obliging) {occasion : Occasion}
    {handler : Handler} (mem : handler ∈ host.hooks.handlers occasion) (history : History) :
    handler.respond history = none := by
  obtain ⟨r, hr, rfl⟩ := List.mem_map.mp mem
  exact h.respond r (List.mem_filter.mp hr).1 history

namespace Machine

/-- A machine without its frames and without every count of frames. -/
def unframed (m : Machine) : Machine :=
  { m with
    journal := m.journal.unframed
    history := m.history.map Effect.unframed
    frames := [] }

/-- A machine with another number of levels to unwind. -/
def setUnwind (u : Int) (m : Machine) : Machine := { m with store := m.store.setUnwind u }

theorem unframed_eq_iff {m n : Machine} :
    m.unframed = n.unframed ↔
      m.store = n.store ∧ m.overrides = n.overrides ∧ m.journal.unframed = n.journal.unframed ∧
        m.history.map Effect.unframed = n.history.map Effect.unframed := by
  simp [unframed]

section keeping
variable {τ α : Type} {f : Machine → τ}

theorem keeps_onStore (hs : ∀ m store, f { m with store } = f m) (c : Calculation α) :
    Keeps f (onStore c) := by
  intro m
  unfold onStore
  cases c m.store with
  | ok a store => exact hs m store
  | error failure store => exact hs m store

theorem keeps_ask (answer : History → Option Failure) : Keeps f (ask answer) := by
  intro m
  unfold ask
  cases answer m.history <;> rfl

theorem keeps_ascribing (name : Text) {x : Activity α} (hx : Keeps f x) :
    Keeps f (ascribing name x) := by
  intro m
  have h := hx m
  unfold ascribing
  cases hm : x m <;> simpa [hm, leftState] using h

variable (hh : ∀ m history, f { m with history } = f m)
include hh

theorem keeps_note (effect : Machine → Effect) : Keeps f (note effect) := fun m => hh m _

theorem keeps_handleAll (event : Event) (handlers : List Handler) :
    Keeps f (handleAll event handlers) := by
  induction handlers with
  | nil => exact .pure _
  | cons handler rest ih =>
    exact .bind (.bind (keeps_note hh _) fun _ => keeps_ask _) fun _ => ih

theorem keeps_emit (host : Host) (event : Event) : Keeps f (emit host event) :=
  .bind (keeps_note hh _) fun _ => keeps_handleAll hh event _

theorem keeps_print (host : Host) (p : Print) : Keeps f (print host p) := by
  intro m
  unfold print
  cases printed m.store.outputBase p with
  | error b => rfl
  | ok text => exact Keeps.bind (keeps_ask _) (fun _ => keeps_note hh _) m

theorem keeps_printAll (host : Host) (prints : List Print) : Keeps f (printAll host prints) := by
  induction prints with
  | nil => exact .pure _
  | cons p rest ih => exact .bind (keeps_print hh host p) fun _ => ih

theorem keeps_command (host : Host) (text : Text) : Keeps f (command host text) :=
  .bind (keeps_emit hh host _) fun _ => .bind (keeps_note hh _) fun _ => keeps_ask _

end keeping

theorem keeps_perform {τ : Type} {f : Machine → τ} (hs : ∀ m store, f { m with store } = f m)
    (hh : ∀ m history, f { m with history } = f m) (host : Host) (name : Text)
    (next : Option Text) (turned : Bool) : Keeps f (perform host name next turned) :=
  .bind (fun m => keeps_onStore hs _ m) fun _ =>
    .bind (keeps_ascribing name (keeps_printAll hh host _)) fun _ => .pure _

section agreeing
variable {α : Type} {host : Host}

theorem agree_onStore (c : Calculation α) : Agree unframed (onStore c) (onStore c) := by
  intro m n h
  obtain ⟨store, rest⟩ := unframed_eq_iff.mp h
  unfold onStore
  rw [store]
  cases c n.store with
  | ok a s => exact congrArg (EStateM.Result.ok a) (unframed_eq_iff.mpr ⟨rfl, rest⟩)
  | error e s => exact congrArg (EStateM.Result.error e) (unframed_eq_iff.mpr ⟨rfl, rest⟩)

theorem agree_ask {answer : History → Option Failure} (h : ∀ history, answer history = none) :
    Agree unframed (ask answer) (ask answer) := by
  intro m n hmn
  simp only [ask, h, through_ok, hmn]

theorem agree_note {effect : Machine → Effect}
    (h : ∀ m n, m.unframed = n.unframed → (effect m).unframed = (effect n).unframed) :
    Agree unframed (note effect) (note effect) := by
  intro m n hmn
  obtain ⟨store, overrides, journal, history⟩ := unframed_eq_iff.mp hmn
  refine congrArg (EStateM.Result.ok ()) (unframed_eq_iff.mpr ⟨store, overrides, journal, ?_⟩)
  rw [List.map_cons, List.map_cons, h m n hmn, history]

theorem agree_setFrames (fs gs : List Frame) :
    Agree unframed (setFrames fs) (setFrames gs) :=
  fun _ _ h => congrArg (EStateM.Result.ok ()) (unframed_eq_iff.mpr (unframed_eq_iff.mp h))

theorem agree_record (name : Text) (position : Nat) (action : Action) :
    Agree unframed (record name position action) (record name position action) := by
  intro m n h
  obtain ⟨store, overrides, journal, history⟩ := unframed_eq_iff.mp h
  refine congrArg (EStateM.Result.ok ()) (unframed_eq_iff.mpr ⟨store, overrides, ?_, history⟩)
  simp only [Journal.unframed_record, journal, store]

theorem agree_handleAll (event : Event) (handlers : List Handler)
    (h : ∀ handler ∈ handlers, ∀ history, handler.respond history = none) :
    Agree unframed (handleAll event handlers) (handleAll event handlers) := by
  induction handlers with
  | nil => exact .pure _
  | cons handler rest ih =>
    refine .bind (.bind (agree_note ?_) fun _ => agree_ask (h handler List.mem_cons_self)) fun _ =>
      ih fun handler' mem => h handler' (List.mem_cons_of_mem _ mem)
    intro m n hmn
    simp only [Effect.unframed, (unframed_eq_iff.mp hmn).1]

variable (obliging : host.Obliging)
include obliging

theorem agree_emit (event : Event) : Agree unframed (emit host event) (emit host event) :=
  .bind (agree_note fun _ _ _ => rfl) fun _ =>
    agree_handleAll event _ fun _ mem => obliging.handlers mem

theorem agree_print (p : Print) : Agree unframed (print host p) (print host p) := by
  intro m n h
  unfold print
  rw [(unframed_eq_iff.mp h).1]
  cases printed n.store.outputBase p with
  | error b => exact congrArg (EStateM.Result.error _) h
  | ok text =>
    exact Agree.bind (agree_ask fun _ => obliging.write _ _)
      (fun _ => agree_note fun _ _ _ => rfl) m n h

theorem agree_printAll (prints : List Print) :
    Agree unframed (printAll host prints) (printAll host prints) := by
  induction prints with
  | nil => exact .pure _
  | cons p rest ih => exact .bind (agree_print obliging p) fun _ => ih

theorem agree_command (text : Text) : Agree unframed (command host text) (command host text) :=
  .bind (agree_emit obliging _) fun _ =>
    .bind (agree_note fun _ _ _ => rfl) fun _ => agree_ask fun _ => obliging.run _ _

theorem agree_perform (name : Text) (next : Option Text) (turned : Bool) :
    Agree unframed (perform host name next turned) (perform host name next turned) := by
  refine .bind (fun m n h => ?_) fun response => .bind (fun m n h => ?_) fun _ => .pure _
  · obtain ⟨-, overrides, -⟩ := unframed_eq_iff.mp h
    rw [respond, respond, overrides]
    exact agree_onStore _ m n h
  · have printed := agree_printAll obliging response.prints m n h
    unfold ascribing
    revert printed
    cases printAll host response.prints m <;> cases printAll host response.prints n <;>
      simp +contextual

end agreeing

section commuting
variable {α : Type} {u : Int}

theorem commutes_onStore {c : Calculation α} (h : Commutes (Store.setUnwind u) c) :
    Commutes (setUnwind u) (onStore c) := by
  intro m
  simp only [onStore, setUnwind, h m.store]
  cases c m.store <;> rfl

theorem commutes_ask (answer : History → Option Failure) : Commutes (setUnwind u) (ask answer) := by
  intro m
  simp only [ask, setUnwind]
  cases answer m.history <;> rfl

theorem commutes_ascribing (name : Text) {x : Activity α} (h : Commutes (setUnwind u) x) :
    Commutes (setUnwind u) (ascribing name x) := by
  intro m
  simp only [ascribing, h m]
  cases x m <;> rfl

theorem commutes_note {effect : Machine → Effect} (h : ∀ m, effect (m.setUnwind u) = effect m) :
    Commutes (setUnwind u) (note effect) := by
  intro m
  simp only [note, update, h, through_ok]
  rfl

theorem commutes_setFrames (frames : List Frame) : Commutes (setUnwind u) (setFrames frames) :=
  fun _ => rfl

theorem commutes_record (name : Text) (position : Nat) (action : Action) :
    Commutes (setUnwind u) (record name position action) := fun _ => rfl

theorem commutes_handleAll (event : Event) (handlers : List Handler) :
    Commutes (setUnwind u) (handleAll event handlers) := by
  induction handlers with
  | nil => exact .pure _
  | cons handler rest ih =>
    exact .bind (.bind (commutes_note fun _ => rfl) fun _ => commutes_ask _) fun _ => ih

theorem commutes_emit (host : Host) (event : Event) : Commutes (setUnwind u) (emit host event) :=
  .bind (commutes_note fun _ => rfl) fun _ => commutes_handleAll event _

theorem commutes_print (host : Host) (p : Print) : Commutes (setUnwind u) (print host p) := by
  intro m
  unfold print
  have base : (m.setUnwind u).store.outputBase = m.store.outputBase := rfl
  rw [base]
  cases printed m.store.outputBase p with
  | error b => rfl
  | ok text =>
    exact Commutes.bind (commutes_ask _) (fun _ => commutes_note fun _ => rfl) m

theorem commutes_printAll (host : Host) (prints : List Print) :
    Commutes (setUnwind u) (printAll host prints) := by
  induction prints with
  | nil => exact .pure _
  | cons p rest ih => exact .bind (commutes_print host p) fun _ => ih

theorem commutes_command (host : Host) (text : Text) :
    Commutes (setUnwind u) (command host text) :=
  .bind (commutes_emit host _) fun _ =>
    .bind (commutes_note fun _ => rfl) fun _ => commutes_ask _

end commuting

end Machine

end DeskCalculator
