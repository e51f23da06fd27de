import DeskCalculator.Proofs.Machine.Performances
import DeskCalculator.Proofs.Ranges

/-!
What is read from an array. A session keeps its arrays from one program to the next, also where a
program fails, and what is found at an index is what was stored there last since the session was reset:
the latest of all stores that did not fail, under this name and at an index that comes to the same
integer. Nothing else changes it.
-/

namespace DeskCalculator

namespace Performance

variable {name : Text} {index : Int} {p : Performance} {ps ps' : List Performance}

/-- The value that a performance stores at an index of an array, if it does. -/
def stored? (name : Text) (index : Int) (p : Performance) : Option Value :=
  match p.before.stack with
  | i :: v :: _ =>
    if p.does .storeElement name ∧ (i.toInt ':').toOption = some index then some v else none
  | _ => none

theorem stored?_of_not_does (other : ¬ p.does .storeElement name) : p.stored? name index = none := by
  unfold stored?
  split
  · exact if_neg fun h => other h.1
  · rfl

/-- A value that is stored is found, and elsewhere what was found before. -/
theorem Done.element? (done : p.Done) :
    p.after.memory.element? name index =
      (p.stored? name index).or (p.before.memory.element? name index) := by
  have elsewhere {i : Instruction} {n : Text} (does : p.does i n) (ne : i ≠ .storeElement) :
      p.stored? name index = none :=
    stored?_of_not_does (not_does does ne name)
  cases done.writing with
  | nothing reads memory =>
    have unstored : p.stored? name index = none :=
      stored?_of_not_does fun h => nomatch reads _ _ h
    rw [memory, unstored, Option.none_or]
  | store does _ memory | save does _ memory | restore does _ _ memory =>
    rw [memory, elsewhere does (by decide), Option.none_or]
    rfl
  | @storeElement n i v rest index' does stack read memory =>
    rw [memory, Memory.element?_setElement, stored?, stack]
    simp only [read, Except.toOption, Option.some.injEq]
    by_cases named : name = n
    · subst named
      by_cases there : index = index'
      · rw [if_pos ⟨rfl, there⟩, if_pos ⟨does, there.symm⟩, Option.some_or]
      · rw [if_neg fun h => there h.2, if_neg fun h => there h.2.symm, Option.none_or]
    · rw [if_neg fun h => named h.1, if_neg fun h => named (eq_of_does h.1 does).2, Option.none_or]

/-- The value stored last at an index of an array. -/
def lastStored? (name : Text) (index : Int) (ps : List Performance) : Option Value :=
  (ps.filterMap (stored? name index)).getLast?

theorem lastStored?_cons :
    lastStored? name index (p :: ps) = (lastStored? name index ps).or (p.stored? name index) := by
  unfold lastStored?
  cases stored : p.stored? name index with
  | none => rw [List.filterMap_cons_none stored, Option.or_none]
  | some v =>
    rw [List.filterMap_cons_some stored, List.getLast?_cons]
    cases (ps.filterMap (stored? name index)).getLast? <;> rfl

theorem lastStored?_eq_none (unstored : lastStored? name index ps = none) :
    ∀ p ∈ ps, p.stored? name index = none :=
  List.filterMap_eq_nil_iff.mp (List.getLast?_eq_none_iff.mp unstored)

/-- The value stored last was stored by some performance, and by none after it. -/
theorem lastStored?_eq_some {v : Value} (last : lastStored? name index ps = some v) :
    ∃ earlier p later, ps = earlier ++ p :: later ∧ p.stored? name index = some v ∧
      ∀ q ∈ later, q.stored? name index = none := by
  induction ps with
  | nil => cases last
  | cons p ps ih =>
    rw [lastStored?_cons] at last
    cases further : lastStored? name index ps with
    | none =>
      rw [further, Option.none_or] at last
      exact ⟨[], p, ps, rfl, last, lastStored?_eq_none further⟩
    | some w =>
      rw [further, Option.some_or] at last
      obtain ⟨earlier, q, later, rfl, stored, unstored⟩ := ih (further.trans last)
      exact ⟨p :: earlier, q, later, rfl, stored, unstored⟩

end Performance

open Performance

theorem Linked.element? {mem mem' : Memory} {ps : List Performance} (h : Linked mem ps mem')
    (name : Text) (index : Int) :
    mem'.element? name index = (lastStored? name index ps).or (mem.element? name index) := by
  induction h with
  | nil => rfl
  | cons done _ ih => rw [ih, lastStored?_cons, done.element?, Option.or_assoc]

/-- What is wrong when nothing is found at an index. -/
def Store.missing (name : Text) (index : Int) (s : Store) : Cause :=
  if (s.arrays.find? name).isSome then .missingElement name index else .emptyArray name

theorem Store.kind_missing (name : Text) (index : Int) (s : Store) :
    (s.missing name index).kind = .missingKey := by
  unfold missing
  split <;> rfl

theorem Store.eq_of_quoted {name : Text} {index n : Int} {s : Store}
    (quoted : n ∈ (s.missing name index).quotedInteger?) : n = index := by
  unfold missing at quoted
  split at quoted
  · exact (Option.some.inj quoted).symm
  · cases quoted

theorem Instruction.performFetchElement_eq (name : Text) {s : Store} {i : Value}
    {rest : List Value} {index : Int} (stack : s.stack = i :: rest) (read : i.toInt ';' = .ok index) :
    performFetchElement name s =
      match s.memory.element? name index with
      | some v => .ok { action := .skipName } { s with stack := v :: rest }
      | none => .error (.of (s.missing name index)) { s with stack := rest } := by
  simp only [performFetchElement, popInt, bind_apply, Store.pop, stack, Store.attempt, read,
    Store.existingArray, Store.memory, Store.missing]
  cases found : s.arrays.find? name with
  | none => rfl
  | some cells =>
    simp only [Cells.fetch, Option.bind_some, Option.isSome_some, if_true]
    cases cells.find? index <;> rfl

/-- How the value at an index is fetched after some performances, by a step from `m` that takes the
index from the stack: it is the one stored there last, or none has been stored there, and that is a
missing key, unless an integer would have to be quoted that is too long. -/
inductive Fetched (name : Text) (index : Int) (ps : List Performance) (m : Machine)
    (rest : List Value) : EStateM.Result Failure Machine (Option Signal) → Prop where
  | found {earlier later : List Performance} {p : Performance} {v : Value} {m' : Machine}
      (split : ps = earlier ++ p :: later) (stored : p.stored? name index = some v)
      (last : ∀ q ∈ later, q.stored? name index = none)
      (pushed : m'.store = { m.store with stack := v :: rest }) :
      Fetched name index ps m rest (.ok none m')
  | missing {f : Fault} {m' : Machine} (unstored : ∀ p ∈ ps, p.stored? name index = none)
      (cause : f.cause = m.store.missing name index) (kind : f.cause.kind = .missingKey)
      (quotable : ∀ n ∈ f.cause.quotedInteger?, n.natAbs < decimalLimit)
      (left : m'.store = { m.store with stack := rest }) :
      Fetched name index ps m rest (.error (.fault f) m')
  | unquotable {m' : Machine} (unstored : ∀ p ∈ ps, p.stored? name index = none)
      (quotes : (m.store.missing name index).quotedInteger? = some index)
      (long : decimalLimit ≤ index.natAbs)
      (left : m'.store = { m.store with stack := rest }) :
      Fetched name index ps m rest (.error (.breakdown .numeralTooLong) m')

namespace Machine

variable {host : Host} {m : Machine} {c : CodePoint} {turned : Bool} {i : Value}
  {rest : List Value} {index : Int} {ps : List Performance}

theorem perform_fetch (host : Host) (c : CodePoint) (turned : Bool) (builtIn : m.overrides = {})
    (stack : m.store.stack = i :: rest) (read : i.toInt ';' = .ok index) :
    perform host [.scalar ';'] (some [c]) turned m =
      match m.store.memory.element? [c] index with
      | some v => .ok .skipName { m with store := { m.store with stack := v :: rest } }
      | none =>
        .error ((Failure.of (m.store.missing [c] index)).ascribe [.scalar ';'])
          { m with store := { m.store with stack := rest } } := by
  have named : ¬ ((Instruction.ofName [.scalar ';']).needsName ∧ some [c] = none) :=
    fun h => nomatch h.2
  have fetches : (Instruction.ofName [.scalar ';']).perform (some [c]) turned m.store =
      Instruction.performFetchElement [c] m.store := rfl
  have answered : m.overrides.perform [.scalar ';'] (some [c]) turned m.store =
      match m.store.memory.element? [c] index with
      | some v => .ok { action := .skipName } { m.store with stack := v :: rest }
      | none =>
        .error ((Failure.of (m.store.missing [c] index)).ascribe [.scalar ';'])
          { m.store with stack := rest } := by
    rw [builtIn, Overrides.builtIn_perform, if_neg named, fetches,
      Instruction.performFetchElement_eq [c] stack read]
    cases m.store.memory.element? [c] index <;> rfl
  rw [perform, bind_apply, respond, onStore, answered]
  cases m.store.memory.element? [c] index <;> rfl

/-- A machine that remembers what was stored by some performances alone fetches the last of it. -/
theorem fetched_step (host : Host) (calling : Calling) (builtIn : m.overrides = {})
    (linked : Linked ({} : Store).memory ps m.store.memory) {frame : Frame} {callers : List Frame}
    (frames : m.frames = frame :: callers) (fetches : frame.cursor.peek? = some (.scalar ';'))
    (named : (frame.cursor.advance 1).peek? = some c) (stack : m.store.stack = i :: rest)
    (read : i.toInt ';' = .ok index) :
    Fetched [c] index ps m rest (step host calling m) := by
  -- There is nothing in the arrays of a new store, so what is found was stored by `ps`.
  have found : m.store.memory.element? [c] index = lastStored? [c] index ps :=
    (linked.element? [c] index).trans Option.or_none
  have next : (frame.cursor.advance 1).peek?.map ([·]) = some [c] := by rw [named, Option.map_some]
  have performed := perform_fetch host c frame.turned (m := m.begun frame callers) builtIn stack read
  change _ = match m.store.memory.element? [c] index with | some v => _ | none => _ at performed
  rw [found] at performed
  rw [step_of_pending frames fetches]
  cases last : lastStored? [c] index ps with
  | some v =>
    rw [last, ← next] at performed
    obtain ⟨earlier, p, later, split, stored, unstored⟩ := lastStored?_eq_some last
    rw [bind_apply, execute_of_performed performed]
    exact .found split stored unstored rfl
  | none =>
    rw [last, ← next] at performed
    have refused : execute host [.scalar ';'] (frame.cursor.advance 1) frame callers m = .error _ _ :=
      bind_eq_error.mpr (.inr ⟨(), m.begun frame callers, rfl,
        bind_eq_error.mpr (.inl performed)⟩)
    rw [bind_error refused]
    have unstored := lastStored?_eq_none last
    have kind := m.store.kind_missing [c] index
    obtain ⟨f, told, cause, quotable⟩ | ⟨told, n, quotes, long⟩ :=
      Failure.ascribe_of (m.store.missing [c] index) none [.scalar ';']
    · change Fetched _ _ _ _ _ (.error ((Failure.of (m.store.missing [c] index)).ascribe _) _)
      rw [told]
      refine .missing unstored cause (cause ▸ kind) (fun n quoted => Nat.not_le.mp fun long => ?_) rfl
      exact quotable ⟨n, cause ▸ quoted, long⟩
    · change Fetched _ _ _ _ _ (.error ((Failure.of (m.store.missing [c] index)).ascribe _) _)
      rw [told]
      obtain rfl := Store.eq_of_quoted quotes
      exact .unquotable unstored quotes long rfl

end Machine

namespace Session

open Machine

/-- The sessions that runs and pushes lead to from a new session or from one that has been reset, with
the instructions that have been performed since. The host may be another one each time. -/
inductive Recorded : Session → List Performance → Prop where
  | start (verbose : Bool) : Recorded (start verbose) []
  | reset (s : Session) : Recorded s.reset []
  | push {s : Session} {log : List Performance} (v : Value) :
      Recorded s log → Recorded (s.push v) log
  | run {s s' : Session} {log : List Performance} {host : Host} {limit : Nat} {name source : Text}
      {result : Except RunFailure Signal} :
      Recorded s log → s.run host limit name source = some (result, s') →
      Recorded s' (log ++ performancesOf host limit name source s.machine)

variable {s : Session} {log : List Performance} {host : Host} {name source : Text} {k : Nat}
  {m : Machine}

theorem valid_recorded (h : Recorded s log) : s.machine.Valid := by
  induction h with
  | start | reset => exact ⟨Store.valid_empty, rfl⟩
  | push v _ valid => exact ⟨valid.store.withStack _, valid.builtIn⟩
  | run _ ran valid => exact valid.run (machine_of_run ran)

theorem linked_recorded (h : Recorded s log) :
    Linked ({} : Store).memory log s.machine.store.memory := by
  induction h with
  | start | reset => exact .nil _
  | push v _ linked => exact linked
  | run _ ran linked => exact linked.append (linked_of_run (machine_of_run ran))

/-- While a program runs in a session, the value at an index of an array is the one stored there last
since the session was reset, by this program or an earlier one, also where that has failed. If there
is none, the key is missing. A step in which no value is stored there never changes what is found. -/
theorem reads_last_stored (recorded : Recorded s log)
    (reached : steps host .flat k (s.machine.started host name source) = .ok none m)
    {frame : Frame} {callers : List Frame} {c : CodePoint} {i : Value} {rest : List Value}
    {index : Int} (frames : m.frames = frame :: callers)
    (fetches : frame.cursor.peek? = some (.scalar ';'))
    (named : (frame.cursor.advance 1).peek? = some c)
    (stack : m.store.stack = i :: rest) (read : i.toInt ';' = .ok index) :
    Fetched [c] index (log ++ performances host .flat k (s.machine.started host name source)) m rest
        (step host .flat m) ∧
      ∀ m' : Machine, (∀ p ∈ m'.performed? host, p.stored? [c] index = none) →
        (leftState (step host .flat m')).store.memory.element? [c] index =
          m'.store.memory.element? [c] index := by
  have valid := valid_recorded recorded
  have told := (preserves_emit host (.programStart source) _ valid.cleared).1
  have begun : (s.machine.started host name source).Valid := ⟨told.store, told.builtIn⟩
  have ended : (leftState (steps host .flat k (s.machine.started host name source))).Valid :=
    begun.steps k
  constructor
  · have earlier := linked_recorded recorded
    have now := linked_of_steps host .flat k (s.machine.started host name source)
    rw [memory_started] at now
    rw [reached] at now ended
    exact fetched_step host .flat ended.builtIn (earlier.append now) frames fetches named stack read
  · intro m' unstored
    refine memory_part_of_step (f := (Memory.element? · [c] index)) host .flat m' fun p performed => ?_
    rw [(done_of_performed performed).2.element?, unstored p performed, Option.none_or]

/-- The first program fails at an index below zero. The second one reads what it had stored before. -/
theorem reads_last_stored_after_failure :
    let failing := Text.ofString "7 0:a5 0:b8_1:a"
    let source := Text.ofString "3 1:a2sa0;a"
    ∃ result s, (start false).run {} 30 [] failing = some (result, s) ∧ result.toOption = none ∧
      let log := performancesOf {} 30 [] failing (start false).machine ++
        performances {} .flat 7 (s.machine.started {} [] source)
      let m := leftState (steps {} .flat 7 (s.machine.started {} [] source))
      Fetched [.scalar 'a'] 0 log m [] (step {} .flat m) ∧
        (leftState (step {} .flat m)).store.stack = [.int 7] := by
  intro failing source
  let frame : Frame := { name := [], cursor := ⟨source, 9⟩, position := 8 }
  have seen : ((start false).run {} 30 [] failing).map (fun r =>
      let reached := steps {} .flat 7 (r.2.machine.started {} [] source)
      let m := leftState reached
      (r.1.toOption, goesOn reached, m.frames, m.store.stack,
        (leftState (step {} .flat m)).store.stack)) =
      some (none, true, [frame], [.int 0], [.int 7]) := by
    decide +kernel
  obtain ⟨⟨result, s⟩, ran, left⟩ := Option.map_eq_some_iff.mp seen
  obtain ⟨failed, goes, frames, stack, pushed⟩ : _ ∧ _ ∧ _ ∧ _ ∧ _ := by
    simpa only [Prod.mk.injEq] using left
  refine ⟨result, s, ran, failed, ?_, pushed⟩
  exact (reads_last_stored (.run (.start false) ran) (eq_of_goesOn goes) frames rfl rfl stack rfl).1

end Session

end DeskCalculator
