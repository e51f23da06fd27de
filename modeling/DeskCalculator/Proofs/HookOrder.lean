import DeskCalculator.Proofs.Machine.Notices

/-!
The order in which handlers are called. A registration is placed among those before it, one at a
time; this comes to one stable sort of all registrations by falling priority, and for each occasion
to a sort of the registrations for it alone. An event is told to the handlers in that order, up to the
first one that refuses. A registration for an occasion that does not exist is refused, and it is as if
it had not been asked for.
-/

namespace DeskCalculator

namespace Hooks

section ranking
variable {α : Type} {asked order : List (Registration α)} {r : Registration α}

/-- Whether `r` may stand in front of `r'`. -/
def mayPrecede (r r' : Registration α) : Bool := decide (r'.priority ≤ r.priority)

/-- `order` has what was `asked`, with the priorities falling, and where they are equal in the order in
which it was asked. -/
structure Ranked (asked order : List (Registration α)) : Prop where
  perm : order.Perm asked
  falling : order.Pairwise fun r r' => r'.priority ≤ r.priority
  stable : ∀ p, order.filter (·.priority = p) = asked.filter (·.priority = p)

theorem ranked_nil : Ranked ([] : List (Registration α)) [] := ⟨.nil, .nil, fun _ => rfl⟩

theorem ranked_mergeSort (asked : List (Registration α)) :
    Ranked asked (asked.mergeSort mayPrecede) := by
  have trans (a b c : Registration α) (hab : mayPrecede a b) (hbc : mayPrecede b c) :
      mayPrecede a c := by
    simp only [mayPrecede, decide_eq_true_eq] at hab hbc ⊢
    omega
  have total (a b : Registration α) : mayPrecede a b || mayPrecede b a := by
    simp only [mayPrecede, Bool.or_eq_true, decide_eq_true_eq]
    omega
  have perm := List.mergeSort_perm asked mayPrecede
  refine ⟨perm, ?_, fun p => ?_⟩
  · exact (List.pairwise_mergeSort trans total asked).imp fun h => of_decide_eq_true h
  · -- Those of one priority are in order already, so they are a sublist of what is sorted.
    have level : (asked.filter (·.priority = p)).Pairwise (mayPrecede · ·) := by
      refine List.pairwise_filter.mpr (List.pairwise_of_forall fun a b ha hb => ?_)
      simp only [decide_eq_true_eq] at ha hb
      simp [mayPrecede, ha, hb]
    have kept := (List.sublist_mergeSort trans total level List.filter_sublist).filter
      (·.priority = p)
    rw [List.filter_filter] at kept
    simp only [Bool.and_self] at kept
    exact (kept.eq_of_length ((perm.filter _).length_eq).symm).symm

/-- There is one order with falling priorities that keeps those of each priority as they are. -/
theorem eq_of_falling {a b : List (Registration α)}
    (fallsA : a.Pairwise fun r r' => r'.priority ≤ r.priority)
    (fallsB : b.Pairwise fun r r' => r'.priority ≤ r.priority)
    (same : ∀ p, a.filter (·.priority = p) = b.filter (·.priority = p)) : a = b := by
  have mem_iff (r : Registration α) : r ∈ a ↔ r ∈ b := by
    have levels := congrArg (r ∈ ·) (same r.priority)
    simpa using levels
  induction a generalizing b with
  | nil => exact (List.eq_nil_iff_forall_not_mem.mpr fun r mem => nomatch (mem_iff r).mpr mem).symm
  | cons x a ih =>
    cases b with
    | nil => exact nomatch (mem_iff x).mp List.mem_cons_self
    | cons y b =>
      obtain ⟨aboveA, tailA⟩ := List.pairwise_cons.mp fallsA
      obtain ⟨aboveB, tailB⟩ := List.pairwise_cons.mp fallsB
      have first : x.priority = y.priority := by
        have le : y.priority ≤ x.priority := by
          obtain rfl | mem := List.mem_cons.mp ((mem_iff y).mpr List.mem_cons_self)
          · exact Int.le_refl _
          · exact aboveA y mem
        have ge : x.priority ≤ y.priority := by
          obtain rfl | mem := List.mem_cons.mp ((mem_iff x).mp List.mem_cons_self)
          · exact Int.le_refl _
          · exact aboveB x mem
        omega
      obtain ⟨rfl, -⟩ : x = y ∧ _ := by
        have level := same x.priority
        rw [List.filter_cons_of_pos (by simp), List.filter_cons_of_pos (by simp [first])] at level
        exact List.cons.inj level
      have rest (p : Int) : a.filter (·.priority = p) = b.filter (·.priority = p) := by
        have level := same p
        by_cases here : x.priority = p
        · rw [List.filter_cons_of_pos (by simp [here]),
            List.filter_cons_of_pos (by simp [here])] at level
          exact (List.cons.inj level).2
        · rwa [List.filter_cons_of_neg (by simp [here]),
            List.filter_cons_of_neg (by simp [here])] at level
      refine congrArg (x :: ·) (ih tailA tailB rest fun r => ?_)
      have levels := congrArg (r ∈ ·) (rest r.priority)
      simpa using levels

theorem Ranked.self (h : Ranked asked order) : Ranked order order :=
  ⟨.refl _, h.falling, fun _ => rfl⟩

theorem Ranked.unique {order' : List (Registration α)} (h : Ranked asked order)
    (h' : Ranked asked order') : order = order' :=
  eq_of_falling h.falling h'.falling fun p => (h.stable p).trans (h'.stable p).symm

theorem Ranked.eq_mergeSort (h : Ranked asked order) : order = asked.mergeSort mayPrecede :=
  h.unique (ranked_mergeSort asked)

/-- Those that are picked out are ranked among themselves. -/
theorem Ranked.filter (h : Ranked asked order) (p : Registration α → Bool) :
    Ranked (asked.filter p) (order.filter p) where
  perm := h.perm.filter p
  falling := h.falling.filter p
  stable q := by
    rw [List.filter_filter, List.filter_filter]
    have commuted (rs : List (Registration α)) :
        rs.filter (fun r => decide (r.priority = q) && p r) =
          (rs.filter (·.priority = q)).filter p := by
      rw [List.filter_filter]
      simp only [Bool.and_comm]
    rw [commuted, commuted, h.stable]

theorem perm_place (r : Registration α) (order : List (Registration α)) :
    (place r order).Perm (r :: order) := by
  fun_induction place r order with
  | case1 => exact .refl _
  | case2 r' rest _ ih => exact (ih.cons r').trans (.swap r r' rest)
  | case3 => exact .refl _

theorem falling_place (r : Registration α)
    (falls : order.Pairwise fun r r' => r'.priority ≤ r.priority) :
    (place r order).Pairwise fun r r' => r'.priority ≤ r.priority := by
  fun_induction place r order with
  | case1 => exact List.pairwise_singleton _ _
  | case2 r' rest le ih =>
    obtain ⟨above, falls⟩ := List.pairwise_cons.mp falls
    refine List.pairwise_cons.mpr ⟨fun x mem => ?_, ih falls⟩
    obtain rfl | mem := List.mem_cons.mp ((perm_place r rest).mem_iff.mp mem)
    · exact le
    · exact above x mem
  | case3 r' rest lt =>
    refine List.pairwise_cons.mpr ⟨fun x mem => ?_, falls⟩
    obtain rfl | mem := List.mem_cons.mp mem
    · omega
    · have above := (List.pairwise_cons.mp falls).1 x mem
      omega

/-- A registration is placed behind those of its own priority. -/
theorem stable_place (r : Registration α)
    (falls : order.Pairwise fun r r' => r'.priority ≤ r.priority) (p : Int) :
    (place r order).filter (·.priority = p) = (order ++ [r]).filter (·.priority = p) := by
  fun_induction place r order with
  | case1 => rfl
  | case2 r' rest le ih =>
    rw [List.cons_append, List.filter_cons, List.filter_cons, ih (List.pairwise_cons.mp falls).2]
  | case3 r' rest lt =>
    -- All that follow are below `r`, so among those of its priority it is alone.
    have below (x : Registration α) (mem : x ∈ r' :: rest) : x.priority < r.priority := by
      obtain rfl | mem := List.mem_cons.mp mem
      · omega
      · have above := (List.pairwise_cons.mp falls).1 x mem
        omega
    rw [List.filter_append]
    by_cases here : r.priority = p
    · have none : (r' :: rest).filter (·.priority = p) = [] := by
        refine List.filter_eq_nil_iff.mpr fun x mem => ?_
        have less := below x mem
        simp only [decide_eq_true_eq]
        omega
      rw [none, List.filter_cons, none, if_pos (by simp [here])]
      simp [here]
    · rw [List.filter_cons, if_neg (by simp [here])]
      simp [here]

theorem Ranked.place (h : Ranked asked order) (r : Registration α) :
    Ranked (asked ++ [r]) (place r order) where
  perm := (perm_place r order).trans ((h.perm.cons r).trans (List.perm_append_singleton r asked).symm)
  falling := falling_place r h.falling
  stable p := by
    rw [stable_place r h.falling, List.filter_append, h.stable, ← List.filter_append]

end ranking

end Hooks

theorem Occasion.ofName?_eq_some_iff {name : Text} {occasion : Occasion} :
    ofName? name = some occasion ↔ name = occasion.name := by
  constructor
  · intro found
    unfold ofName? at found
    have same := List.find?_some found
    exact (of_decide_eq_true same).symm
  · rintro rfl
    cases occasion <;> decide +kernel

theorem Occasion.eq_of_name {a b : Occasion} (same : a.name = b.name) : a = b := by
  have found : ofName? a.name = some b := ofName?_eq_some_iff.mpr same
  rw [ofName?_eq_some_iff.mpr rfl] at found
  exact Option.some.inj found

namespace Machine

variable {event : Event} {handlers : List Handler} {m : Machine}

/-- A machine after handlers have been told of an event. -/
def afterTelling (event : Event) (handlers : List Handler) (m : Machine) : Machine :=
  { m with
    history :=
      (handlers.map fun handler =>
        .handled handler.tag event m.store.stack.length m.frames.length).reverse ++
          .emitted event m.frames.length :: m.history }

/-- None of the handlers refuses when its turn comes. -/
def Agreeable (event : Event) (handlers : List Handler) (m : Machine) : Prop :=
  ∀ earlier handler later, handlers = earlier ++ handler :: later →
    handler.respond (m.afterTelling event (earlier ++ [handler])).history = none

/-- How handlers are told of an event: all of them, or those up to the first one that refuses. -/
inductive Telling (event : Event) (handlers : List Handler) (m : Machine) :
    EStateM.Result Failure Machine Unit → Prop where
  | all (agreed : m.Agreeable event handlers) :
      Telling event handlers m (.ok () (m.afterTelling event handlers))
  | upTo {earlier later : List Handler} {handler : Handler} {failure : Failure}
      (split : handlers = earlier ++ handler :: later) (agreed : m.Agreeable event earlier)
      (refused : handler.respond (m.afterTelling event (earlier ++ [handler])).history =
        some failure) :
      Telling event handlers m (.error failure (m.afterTelling event (earlier ++ [handler])))

theorem afterTelling_snoc (handler : Handler) :
    m.afterTelling event (handlers ++ [handler]) =
      { m with
        history := .handled handler.tag event m.store.stack.length m.frames.length ::
          (m.afterTelling event handlers).history } := by
  simp [afterTelling]

theorem Agreeable.snoc {handler : Handler} (h : m.Agreeable event handlers)
    (agreed : handler.respond (m.afterTelling event (handlers ++ [handler])).history = none) :
    m.Agreeable event (handlers ++ [handler]) := by
  intro earlier handler' later split
  obtain rfl | ⟨later, last, rfl⟩ := List.eq_nil_or_concat later
  · obtain ⟨rfl, same⟩ := List.append_inj' split rfl
    cases same
    exact agreed
  · rw [List.concat_eq_append, ← List.cons_append, ← List.append_assoc] at split
    exact h earlier handler' later (List.append_inj' split rfl).1

/-- Handlers are called in turn, after those that have been called already. -/
theorem telling_handleAll (event : Event) (done todo : List Handler) (m : Machine)
    (agreed : m.Agreeable event done) :
    Telling event (done ++ todo) m (handleAll event todo (m.afterTelling event done)) := by
  induction todo generalizing done with
  | nil =>
    rw [List.append_nil]
    exact .all agreed
  | cons handler todo ih =>
    have called : handleAll event (handler :: todo) (m.afterTelling event done) =
        (ask handler.respond >>= fun _ => handleAll event todo)
          (m.afterTelling event (done ++ [handler])) := by
      rw [afterTelling_snoc]
      rfl
    rw [called, bind_apply, ask]
    cases answered : handler.respond (m.afterTelling event (done ++ [handler])).history with
    | none =>
      have rest := ih (done ++ [handler]) (agreed.snoc answered)
      rwa [List.append_assoc] at rest
    | some failure => exact .upTo rfl agreed answered

/-- An event is told to the handlers of its occasion. -/
theorem telling_emit (host : Host) (event : Event) (m : Machine) :
    Telling event (host.hooks.handlers event.occasion) m (emit host event m) := by
  have none : m.Agreeable event [] := by
    intro earlier handler later split
    simp at split
  exact telling_handleAll event [] _ m none

end Machine

namespace Host

/-- What is asked of a host: to register a handler under the name of an occasion, or to tell of an
event. -/
inductive Request where
  | register (name : Text) (priority : Int) (handler : Handler)
  | emit (event : Event)

/-- Why a request is refused: no occasion has the name, or a handler refuses. -/
inductive Refusal where
  | unknown (message : Text)
  | handler (failure : Failure)

/-- Serves a request, on the machine that its events are told by. -/
def serve (host : Host) (m : Machine) : Request → Option Refusal × Host × Machine
  | .register name priority handler =>
    match host.hooks.register? name priority handler with
    | none => (some (.unknown (Hooks.unknownMessage name)), host, m)
    | some hooks => (none, { host with hooks }, m)
  | .emit event =>
    match Machine.emit host event m with
    | .ok () m => (none, host, m)
    | .error failure m => (some (.handler failure), host, m)

/-- Serves requests in order, whether any is refused or not. -/
def serveAll (host : Host) (m : Machine) : List Request → Host × Machine
  | [] => (host, m)
  | request :: requests =>
    let (_, host, m) := host.serve m request
    host.serveAll m requests

/-- The registration for an occasion that a request asks for, if it does. -/
def Request.asks? (occasion : Occasion) : Request → Option (Registration Handler)
  | .register name priority handler =>
    if name = occasion.name then some ⟨occasion, priority, handler⟩ else none
  | .emit _ => none

/-- The registrations for an occasion that some requests ask for, in order. -/
def asked (occasion : Occasion) (requests : List Request) : List (Registration Handler) :=
  requests.filterMap (Request.asks? occasion)

/-- The registrations of a host for an occasion. -/
def registered (host : Host) (occasion : Occasion) : List (Registration Handler) :=
  host.hooks.registrations.filter (·.occasion = occasion)

variable {host : Host} {m : Machine} {name : Text}

theorem register?_known (hooks : Hooks Handler) (occasion : Occasion) (priority : Int)
    (handler : Handler) :
    hooks.register? occasion.name priority handler =
      some (hooks.register { occasion, priority, handler }) := by
  rw [Hooks.register?, Occasion.ofName?_eq_some_iff.mpr rfl, Option.map_some]

theorem ofName?_unknown (unknown : ∀ occasion : Occasion, name ≠ occasion.name) :
    Occasion.ofName? name = none := by
  cases named : Occasion.ofName? name with
  | none => rfl
  | some occasion => exact absurd (Occasion.ofName?_eq_some_iff.mp named) (unknown occasion)

theorem serve_unknown (unknown : ∀ occasion : Occasion, name ≠ occasion.name) (host : Host)
    (m : Machine) (priority : Int) (handler : Handler) :
    host.serve m (.register name priority handler) =
      (some (.unknown (Hooks.unknownMessage name)), host, m) := by
  simp only [serve, Hooks.register?, ofName?_unknown unknown, Option.map_none]

theorem serve_known (host : Host) (m : Machine) (occasion : Occasion) (priority : Int)
    (handler : Handler) :
    host.serve m (.register occasion.name priority handler) =
      (none, { host with hooks := host.hooks.register { occasion, priority, handler } }, m) := by
  simp only [serve, register?_known]

theorem serve_emit_host (host : Host) (m : Machine) (event : Event) :
    (host.serve m (.emit event)).2.1 = host := by
  simp only [serve]
  cases Machine.emit host event m <;> rfl

theorem serveAll_append (host : Host) (m : Machine) (requests later : List Request) :
    host.serveAll m (requests ++ later) =
      (host.serveAll m requests).1.serveAll (host.serveAll m requests).2 later := by
  induction requests generalizing host m with
  | nil => rfl
  | cons request requests ih => exact ih _ _

/-- The registrations of a host are ranked after any requests, if they were before. -/
theorem ranked_serveAll {all : List (Registration Handler)} (host : Host) (m : Machine)
    (requests : List Request) (ranked : Hooks.Ranked all host.hooks.registrations) :
    ∃ more, Hooks.Ranked (all ++ more) (host.serveAll m requests).1.hooks.registrations ∧
      ∀ occasion, more.filter (·.occasion = occasion) = asked occasion requests := by
  induction requests generalizing host m all with
  | nil => exact ⟨[], by simpa [serveAll] using ranked, fun _ => rfl⟩
  | cons request requests ih =>
    cases request with
    | emit event =>
      have same := serve_emit_host host m event
      exact ih (host.serve m (.emit event)).2.1 (host.serve m (.emit event)).2.2 (same.symm ▸ ranked)
    | register name priority handler =>
      cases named : Occasion.ofName? name with
      | none =>
        have unknown (occasion : Occasion) : name ≠ occasion.name := by
          rintro rfl
          rw [Occasion.ofName?_eq_some_iff.mpr rfl] at named
          cases named
        obtain ⟨more, further, parts⟩ := ih host m ranked
        refine ⟨more, ?_, fun occasion => ?_⟩
        · rw [serveAll, serve_unknown unknown]
          exact further
        · have passed : (Request.register name priority handler).asks? occasion = none :=
            if_neg (unknown occasion)
          rw [parts occasion, asked, asked, List.filterMap_cons_none passed]
      | some occasion =>
        obtain rfl := Occasion.ofName?_eq_some_iff.mp named
        obtain ⟨more, further, parts⟩ :=
          ih { host with hooks := host.hooks.register { occasion, priority, handler } } m
            (ranked.place { occasion, priority, handler })
        refine ⟨{ occasion, priority, handler } :: more, ?_, fun other => ?_⟩
        · rw [serveAll, serve_known]
          simpa using further
        · by_cases same : occasion = other
          · subst same
            have taken : (Request.register occasion.name priority handler).asks? occasion =
                some { occasion, priority, handler } := if_pos rfl
            rw [List.filter_cons_of_pos (by simp), parts occasion, asked, asked,
              List.filterMap_cons_some taken]
          · have passed : (Request.register occasion.name priority handler).asks? other = none :=
              if_neg fun h => same (Occasion.eq_of_name h)
            rw [List.filter_cons_of_neg (by simp [same]), parts other, asked, asked,
              List.filterMap_cons_none passed]

/-- After any requests the handlers of an occasion are those that have been registered for it, ranked,
and an event is told to them in this order. A registration sorts those of its occasion anew. One for
an occasion that does not exist is refused and changes nothing, now or later, and no handler is
called on such an occasion. -/
theorem handlers_ranked (host : Host) (m : Machine) (requests : List Request) :
    let fresh : Host := { host with hooks := {} }
    let now := fresh.serveAll m requests
    (∀ event, ∃ order, Hooks.Ranked (asked event.occasion requests) order ∧
      Machine.Telling event (order.map (·.handler)) now.2 (Machine.emit now.1 event now.2)) ∧
    (∀ r : Registration Handler,
      let served := now.1.serve now.2 (.register r.occasion.name r.priority r.handler)
      served.1 = none ∧ served.2.1.registered r.occasion =
        (now.1.registered r.occasion ++ [r]).mergeSort Hooks.mayPrecede) ∧
    ∀ name, (∀ occasion : Occasion, name ≠ occasion.name) →
      now.1.hooks.handlersNamed name = [] ∧ ∀ priority handler,
        (now.1.serve now.2 (.register name priority handler)).1 =
          some (.unknown (Text.ofString "Unknown event '" ++ name ++ Text.ofString "'")) ∧
        ∀ later, fresh.serveAll m (requests ++ .register name priority handler :: later) =
          fresh.serveAll m (requests ++ later) := by
  intro fresh now
  obtain ⟨all, ranked, parts⟩ := ranked_serveAll fresh m requests Hooks.ranked_nil
  rw [List.nil_append] at ranked
  have rankedFor (occasion : Occasion) :
      Hooks.Ranked (asked occasion requests) (now.1.registered occasion) :=
    parts occasion ▸ ranked.filter _
  refine ⟨fun event => ?_, fun r => ?_, fun name unknown => ?_⟩
  · exact ⟨_, rankedFor event.occasion, Machine.telling_emit now.1 event now.2⟩
  · have anew := (ranked.self.place r).filter (·.occasion = r.occasion)
    rw [List.filter_append, List.filter_cons_of_pos (by simp), List.filter_nil] at anew
    rw [serve_known]
    exact ⟨rfl, anew.eq_mergeSort⟩
  · refine ⟨?_, fun priority handler => ?_⟩
    · rw [Hooks.handlersNamed, ofName?_unknown unknown]
      rfl
    · have refused := serve_unknown unknown now.1 now.2 priority handler
      refine ⟨congrArg Prod.fst refused, fun later => ?_⟩
      rw [serveAll_append, serveAll_append, serveAll, refused]

/-- Of three handlers of commands the last one registered comes second, behind the one whose priority
it shares; a name of no occasion and a handler of errors make no difference. -/
theorem handlers_ranked_ties :
    let quiet (tag : Text) : Handler := { tag, respond := fun _ => none }
    let first := quiet [.scalar 'a']
    let second := quiet [.scalar 'b']
    let last := quiet [.scalar 'c']
    let nowhere := Text.ofString "no_such_event"
    let requests : List Request :=
      [.register Occasion.command.name 0 first, .register Occasion.onError.name 9 last,
        .emit (.command []), .register nowhere 7 first,
        .register Occasion.command.name (-1) last, .register Occasion.command.name 0 second]
    let now := serveAll {} {} requests
    Machine.Telling (.command []) [first, second, last] now.2
        (Machine.emit now.1 (.command []) now.2) ∧
      (now.1.serve now.2 (.register nowhere 7 first)).1 =
        some (.unknown (Text.ofString "Unknown event '" ++ nowhere ++ Text.ofString "'")) := by
  intro quiet first second last nowhere requests now
  obtain ⟨tells, -, refuses⟩ := handlers_ranked {} {} requests
  refine ⟨?_, ((refuses nowhere fun occasion => ?_).2 7 first).1⟩
  · obtain ⟨order, ranked, telling⟩ := tells (.command [])
    have elsewhere : Occasion.onError.name ≠ Occasion.command.name := by decide +kernel
    have unknown : nowhere ≠ Occasion.command.name := by decide +kernel
    have wanted : asked (Event.command []).occasion requests =
        [⟨.command, 0, first⟩, ⟨.command, -1, last⟩, ⟨.command, 0, second⟩] := by
      simp [requests, asked, Request.asks?, Event.occasion, List.filterMap_cons, elsewhere, unknown]
    have place : order = [⟨.command, 0, first⟩, ⟨.command, 0, second⟩, ⟨.command, -1, last⟩] := by
      rw [ranked.eq_mergeSort, wanted]
      simp [Hooks.mayPrecede, List.mergeSort]
    rw [place] at telling
    exact telling
  · cases occasion <;> decide +kernel

end Host

end DeskCalculator
