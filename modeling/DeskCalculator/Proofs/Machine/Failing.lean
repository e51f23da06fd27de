import DeskCalculator.Proofs.Instruction.Blame
import DeskCalculator.Proofs.Machine.Matching
import DeskCalculator.Proofs.Machine.Turn

/-!
How a step fails. Its instruction fails while it is performed, and then it is not recorded, or it has
been recorded and fails in what it asks for. What it hands over on the way, values to be printed or a
command, the host may refuse with a fault of its own. A fault that is ascribed to nothing is ascribed
to the instruction, there and then in the first case and by the record in the second one; a fault of
the host that is ascribed already stays as it is. A breakdown in the first case is put down to the
instruction that was recorded last.
-/

namespace DeskCalculator

/-- What an instruction is at when it fails: its own work, or handing something over to the host. -/
inductive Stage where
  | working
  | handing

/-- The host refuses with a failure what it is asked at some point of a history: to take a text, to
be told of an event, or to run a command. -/
inductive Host.Refuses (host : Host) (history : History) (failure : Failure) : Prop where
  | text {t : Text} (refused : host.write history t = some failure)
  | event {r : Registration Handler} (registered : r ∈ host.hooks.registrations)
      (refused : r.handler.respond history = some failure)
  | command {t : Text} (refused : host.run history t = some failure)

namespace Machine

variable {α : Type} {host : Host} {name : Text} {m m' : Machine} {ch : CodePoint}
  {next : Option Text} {turned : Bool} {failure : Failure}

theorem blamed_onStore {c : Calculation α} (h : Blamed name c) : Blamed name (onStore c) := by
  intro m _
  have calculated := h m.store trivial
  unfold onStore
  cases hc : c m.store with
  | ok a s => trivial
  | error failure s =>
    rw [hc] at calculated
    exact calculated

theorem blamed_invoke (cursor : Cursor) (v : Value) : Blamed name (invoke cursor v) := by
  cases v with
  | text t => exact .pure _
  | int | float => exact (blamed_onStore (Store.blamed_update _)).bind fun _ => .pure _

/-- A fault of an instruction that has been performed blames the instruction, unless it gives a
command. -/
theorem blamed_act {action : Action} (own : action ≠ .command) (frame : Frame)
    (callers : List Frame) : Blamed name (act host name next frame callers action) := by
  cases action with
  | proceed | skipName | quit | comment | negate => exact .pure _
  | callRegister =>
    exact (blamed_onStore (Store.blamed_existingRegister _)).bind fun _ => blamed_invoke _ _
  | callTop => exact (blamed_onStore Store.blamed_pop).bind fun _ => blamed_invoke _ _
  | numeral =>
    exact (blamed_onStore (Store.blamed_read _)).bind fun _ =>
      (blamed_onStore (Store.blamed_update _)).bind fun _ => .pure _
  | string => exact (blamed_onStore (Store.blamed_update _)).bind fun _ => .pure _
  | command => exact absurd rfl own
  | unknown action =>
    unfold act
    exact blamed_onStore (Store.blamed_fail (blames_of _ (.inr rfl)))

/-- A fault of the built-in instruction that responds is ascribed to it. -/
theorem ascribed_respond (builtIn : m.overrides = {})
    (refused : respond [ch] next turned m = .error failure m') : failure.AscribedTo [ch] := by
  simp only [respond, onStore, builtIn] at refused
  cases performed : Overrides.perform {} [ch] next turned m.store with
  | ok response s => simp [performed] at refused
  | error failure' s =>
    rw [performed] at refused
    cases refused
    exact Overrides.ascribed_builtIn performed

/-- An activity that fails with no fault but one that the host has refused something with. -/
abbrev Handing (host : Host) (x : Activity α) : Prop :=
  Secures (fun _ => True)
    (fun failure m => ∀ f, failure = .fault f → host.Refuses m.history failure) x

theorem handing_update (f : Machine → Machine) : Handing host (update f) := fun _ _ => trivial

theorem handing_ask {answer : History → Option Failure}
    (h : ∀ history failure, answer history = some failure → host.Refuses history failure) :
    Handing host (ask answer) := by
  intro m _
  unfold ask
  cases answered : answer m.history with
  | none => trivial
  | some failure => exact fun _ _ => h m.history failure answered

theorem handing_print (p : Print) : Handing host (print host p) := by
  intro m _
  unfold print
  cases printed m.store.outputBase p with
  | error b => exact nofun
  | ok text =>
    have asks : Handing host (ask (host.write · text)) := handing_ask fun _ _ => .text
    exact asks.bind (fun _ => handing_update _) m trivial

theorem handing_printAll (prints : List Print) : Handing host (printAll host prints) := by
  induction prints with
  | nil => exact .pure _
  | cons p rest ih => exact (handing_print p).bind fun _ => ih

theorem handing_handleAll (event : Event) (handlers : List Handler)
    (h : ∀ handler ∈ handlers, ∃ r ∈ host.hooks.registrations, r.handler = handler) :
    Handing host (handleAll event handlers) := by
  induction handlers with
  | nil => exact .pure _
  | cons handler others ih =>
    simp only [List.forall_mem_cons] at h
    obtain ⟨⟨r, registered, rfl⟩, rest⟩ := h
    have asks : Handing host (ask r.handler.respond) := handing_ask fun _ _ => .event registered
    exact ((handing_update _).bind fun _ => asks).bind fun _ => ih rest

theorem handing_emit (event : Event) : Handing host (emit host event) := by
  refine (handing_update _).bind fun _ => handing_handleAll event _ fun handler mem => ?_
  obtain ⟨r, among, rfl⟩ := List.mem_map.mp mem
  exact ⟨r, (List.mem_filter.mp among).1, rfl⟩

theorem handing_command (text : Text) : Handing host (command host text) :=
  (handing_emit _).bind fun _ => (handing_update _).bind fun _ =>
    handing_ask fun _ _ => .command

/-- What has been performed has asked for an action of its instruction. -/
theorem asked_perform {action : Action} (builtIn : m.overrides = {})
    (performed : perform host name next turned m = .ok action m') :
    Overrides.Asked name next action := by
  obtain ⟨response, m₁, responded, rest⟩ := bind_eq_ok.mp performed
  obtain ⟨-, m₂, -, answered⟩ := bind_eq_ok.mp rest
  cases answered
  simp only [respond, onStore, builtIn] at responded
  cases given : Overrides.perform {} name next turned m.store with
  | error failure s => simp [given] at responded
  | ok response' s =>
    rw [given] at responded
    cases responded
    exact Overrides.asked_builtIn name next turned _ _ _ given

section failing
variable {frame : Frame} {callers : List Frame} {stage : Stage} {raised : Failure} {logged : Bool}

/-- A machine that has begun to execute the instruction of its innermost frame. -/
def begun (frame : Frame) (callers : List Frame) (m : Machine) : Machine :=
  { m with frames := frame.begin (frame.cursor.advance 1) :: callers }

/-- How the instruction `ch` of a frame fails and leaves `m'`: before it has been logged, or after.
What is `raised` underneath comes of its own work or of what it hands over. What it prints it hands
over before it is logged, and the failure is ascribed to it on the way. -/
inductive Failing (host : Host) (m : Machine) (frame : Frame) (callers : List Frame)
    (ch : CodePoint) (raised : Failure) (m' : Machine) : Stage → Failure → Bool → Prop where
  | responding
      (failed : respond [ch] ((frame.cursor.advance 1).peek?.map ([·])) frame.turned
        (m.begun frame callers) = .error raised m') :
      Failing host m frame callers ch raised m' .working raised false
  | printing {response : Response} {m₁ : Machine}
      (responded : respond [ch] ((frame.cursor.advance 1).peek?.map ([·])) frame.turned
        (m.begun frame callers) = .ok response m₁)
      (failed : printAll host response.prints m₁ = .error raised m') :
      Failing host m frame callers ch raised m' .handing (raised.ascribe [ch]) false
  | acting {action : Action} {m₁ m₂ : Machine}
      (performed : perform host [ch] ((frame.cursor.advance 1).peek?.map ([·])) frame.turned
        (m.begun frame callers) = .ok action m₁)
      (recorded : record [ch] frame.cursor.index action m₁ = .ok () m₂)
      (failed : act host [ch] ((frame.cursor.advance 1).peek?.map ([·]))
        (frame.begin (frame.cursor.advance 1)) callers action m₂ = .error raised m') :
      Failing host m frame callers ch raised m'
        (if action = .command then .handing else .working) raised true

theorem failing_of_execute
    (failed : execute host [ch] (frame.cursor.advance 1) frame callers m = .error failure m') :
    ∃ raised stage logged, Failing host m frame callers ch raised m' stage failure logged := by
  obtain ⟨⟨⟩⟩ | ⟨⟨⟩, m₁, entered, rest⟩ := bind_eq_error.mp failed
  cases entered
  obtain refused | ⟨action, m₂, performed, rest⟩ := bind_eq_error.mp rest
  · obtain refused | ⟨response, m₂, responded, rest⟩ := bind_eq_error.mp refused
    · exact ⟨failure, .working, false, .responding refused⟩
    · obtain refused | ⟨-, m₃, -, answered⟩ := bind_eq_error.mp rest
      · unfold ascribing at refused
        cases printed : printAll host response.prints m₂ with
        | ok _ m₃ => simp [printed] at refused
        | error raised m₃ =>
          rw [printed] at refused
          cases refused
          exact ⟨raised, .handing, false, .printing responded printed⟩
      · cases answered
  · obtain ⟨⟨⟩⟩ | ⟨⟨⟩, m₃, recorded, acted⟩ := bind_eq_error.mp rest
    exact ⟨failure, _, true, .acting performed recorded acted⟩

/-- An instruction that has been recorded is the one thing that the journal has got. -/
theorem journal_recorded {action : Action} {position : Nat} {m₁ m₂ : Machine}
    (performed : perform host name next turned m = .ok action m₁)
    (recorded : record name position action m₁ = .ok () m₂) :
    m₂.journal.next = m.journal.next + 1 ∧ m₂.journal.last = some name := by
  have before : m₁.journal = m.journal :=
    (keeps_perform (fun _ _ => rfl) (fun _ _ => rfl) host _ _ _).of_ok performed
  cases recorded
  rw [← before]
  exact ⟨rfl, rfl⟩

theorem keeps_journal_act (frame : Frame) (callers : List Frame) (action : Action) :
    Keeps Machine.journal (act host name next frame callers action) :=
  keeps_act (fun _ _ => rfl) (fun _ _ => rfl) (fun _ _ => rfl) _ _ _

/-- When an instruction has failed, the journal is as it was before or has the instruction on it. -/
theorem Failing.journal (h : Failing host m frame callers ch raised m' stage failure logged) :
    if logged then m'.journal.next = m.journal.next + 1 ∧ m'.journal.last = some [ch]
    else m'.journal = m.journal := by
  have responds : Keeps Machine.journal (respond [ch] ((frame.cursor.advance 1).peek?.map ([·]))
      frame.turned) :=
    fun m => keeps_onStore (fun _ _ => rfl) _ m
  cases h with
  | responding failed =>
    have same := responds.of_error failed
    exact same
  | @printing response _ responded failed =>
    have prints : Keeps Machine.journal (printAll host response.prints) :=
      keeps_printAll (fun _ _ => rfl) host _
    have same := (prints.of_error failed).trans (responds.of_ok responded)
    exact same
  | acting performed recorded failed =>
    have after := (keeps_journal_act _ _ _).of_error failed
    have logged := journal_recorded performed recorded
    rw [if_pos rfl, after]
    exact logged

/-- A fault in what is handed over is a refusal of the host. -/
theorem Failing.refused {f : Fault}
    (h : Failing host m frame callers ch (.fault f) m' stage failure logged)
    (handed : stage = .handing) : host.Refuses m'.history (.fault f) := by
  cases h with
  | responding => cases handed
  | printing _ failed => exact (handing_printAll _).of_error trivial failed f rfl
  | @acting action _ _ _ _ failed =>
    split at handed
    · rename_i command
      subst command
      have gives : Handing host (act host [ch] ((frame.cursor.advance 1).peek?.map ([·]))
          (frame.begin (frame.cursor.advance 1)) callers .command) :=
        (handing_update _).bind fun _ => (handing_command _).bind fun _ => .pure _
      exact gives.of_error trivial failed f rfl
    · cases handed

/-- A fault that names an instruction when it is raised is told with that instruction. -/
theorem Failing.named {f : Fault} {instruction : Text}
    (h : Failing host m frame callers ch (.fault f) m' stage failure logged)
    (named : f.instruction = some instruction) :
    (m'.traceback failure).fault.instruction = some instruction := by
  cases h with
  | responding | printing | acting => simp [traceback, Failure.told, Failure.ascribe, named]

/-- A fault that names no instruction when it is raised is told with the one that has failed. -/
theorem Failing.unnamed {f : Fault} (builtIn : m.overrides = {})
    (h : Failing host m frame callers ch (.fault f) m' stage failure logged)
    (unnamed : f.instruction = none) :
    (m'.traceback failure).fault.instruction = some [ch] := by
  have journal := h.journal
  cases h with
  | responding failed =>
    have begun : (m.begun frame callers).overrides = {} := builtIn
    cases unnamed.symm.trans (ascribed_respond begun failed f rfl)
  | printing => simp [traceback, Failure.told, Failure.ascribe, unnamed]
  | acting => simpa [traceback, Failure.told, unnamed] using journal.2

/-- A fault in the work of an instruction names no other one. -/
theorem Failing.working {f : Fault} (builtIn : m.overrides = {})
    (h : Failing host m frame callers ch (.fault f) m' stage failure logged)
    (works : stage = .working) : f.instruction = none ∨ f.instruction = some [ch] := by
  cases h with
  | responding failed =>
    have begun : (m.begun frame callers).overrides = {} := builtIn
    exact .inr (ascribed_respond begun failed f rfl)
  | printing => cases works
  | acting _ _ failed =>
    split at works
    · cases works
    · rename_i own
      exact (blamed_act own _ _).of_error trivial failed f rfl

/-- A fault in the work of an instruction is told with it, and so is every fault that is raised
without an instruction. -/
theorem Failing.ascribed {f : Fault} (builtIn : m.overrides = {})
    (h : Failing host m frame callers ch (.fault f) m' stage failure logged)
    (own : stage = .working ∨ f.instruction = none) :
    (m'.traceback failure).fault.instruction = some [ch] := by
  obtain works | none := own
  · obtain none | named := h.working builtIn works
    · exact h.unnamed builtIn none
    · exact h.named named
  · exact h.unnamed builtIn none

/-- A breakdown is put down to the instruction that was logged last. -/
theorem Failing.breakdown {b : Breakdown}
    (h : Failing host m frame callers ch (.breakdown b) m' stage failure logged) :
    (m'.traceback failure).fault.instruction = if logged then some [ch] else m.journal.last := by
  have journal := h.journal
  cases h with
  | responding | printing => exact congrArg Journal.last journal
  | acting => exact journal.2

end failing

end Machine

end DeskCalculator
