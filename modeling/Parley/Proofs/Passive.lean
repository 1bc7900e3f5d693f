import Parley.Proofs.Course

/-!
This module contains handlers that only listen, and what a delivery to them leaves behind: that they
have heard the event, and nothing that a story or the queue of a runner could tell.
-/

namespace Parley

def History.heard : History → List (Token × Event)
  | [] => []
  | .entered token event _ :: past => heard past ++ [(token, event)]
  | _ :: past => heard past

namespace Event

variable {H : Type}

def told (event : Event) (handlers : List (Token × H)) : List (Token × Event) :=
  handlers.map fun entry => (entry.1, event)

theorem told_append (event : Event) (front back : List (Token × H))
    : event.told (front ++ back) = event.told front ++ event.told back := by
  exact List.map_append

theorem told_rename (event : Event) (name : Token → Token) (handlers : List (Token × H))
    : event.told (handlers.map fun entry => (name entry.1, entry.2))
        =
      (event.told handlers).map fun call => (name call.1, call.2) := by
  simp [told]

theorem filter_told {event : Event} {drivers : List Token} {handlers : List (Token × H)}
    (hfree : ∀ entry ∈ handlers, entry.1 ∉ drivers)
    : (event.told handlers).filter (·.1 ∉ drivers) = event.told handlers := by
  rw [List.filter_eq_self, told, List.forall_mem_map]
  simpa using hfree

end Event

theorem Registry.isEmpty_of_handlers {H : Type} {r : Registry H} {kind : EventKind}
    (hhandlers : r.handlers kind ≠ []) : r.isEmpty = false := by
  rw [isEmpty, size, decide_eq_false_iff_not, List.length_eq_zero_iff, List.flatMap_eq_nil_iff]
  intro hnone
  exact hhandlers (hnone kind kind.mem_all)

/--
A call of a method by which a story goes on, with its result.
-/
inductive Call where
  | canContinue (answer : Bool)
  | continueOne (result : Except EngineError Line)
  | choices (answer : List Choice)
  | choose (index : Nat) (result : Except EngineError Unit)

namespace Session

variable {S E : Type} [Engine S E]

def stepCalls (s : Session S E) : List Call :=
  match s.runner.story with
  | none => []
  | some story =>
    if Engine.canContinue story then
      [.canContinue true, .continueOne (Engine.continueOne story s.world.unwritten).1]
    else
      [.canContinue false, .choices (Engine.choices story)]

def commitCalls (s : Session S E) (index : Nat) : List Call :=
  match s.runner.story with
  | none => []
  | some story =>
    .choices (Engine.choices story) ::
      if index < (Engine.choices story).length then
        [.choose index (Engine.choose story index).1]
      else
        []

def chooseCalls (s : Session S E) (index : Nat) (autoAdvance : Bool) : List Call :=
  s.commitCalls index ++
    if autoAdvance && (s.commit index).1.isOk then (s.commit index).2.stepCalls else []

/--
The calls by which a story goes on because of a move. A paused story gets none.
-/
def calls (s : Session S E) : Move S E → List Call
  | .perform .advance | .perform .tryAdvance => if s.runner.paused then [] else s.stepCalls
  | .perform (.choose index autoAdvance) | .perform (.tryChoose index autoAdvance) =>
    if s.runner.paused then [] else s.chooseCalls index autoAdvance
  | _ => []

end Session

namespace Course

variable {S E : Type} [Engine S E]

def calls (c : Course S E) : List Call :=
  go c.start c.moves
where
  go (start : Session S E) : List (Move S E) → List Call
    | [] => []
    | move :: before => go start before ++ (Course.mk start before).now.calls move

theorem calls_push (c : Course S E) (move : Move S E)
    : (c.push move).calls = c.calls ++ c.now.calls move :=
  rfl

end Course

/--
Whether a request does no more than look around and write down. Of the host's memory it changes only
what the story does not share.
-/
def Operation.Passive {S E T : Type} (share : S → T) : Operation S E → Prop
  | .look | .recall | .note _ | .log .. => True
  | .remember change => ∀ memory, share (change memory) = share memory
  | _ => False

def Program.Passive {S E T : Type} (share : S → T) : Program S E → Prop
  | .done => True
  | .perform request next => request.Passive share ∧ ∀ reply, (next reply).Passive share
  | .subscribe .. => False

/--
Whether a run went on without a call to its story, an event or a change to the shared memory, while
these calls of handlers were made.
-/
structure Course.Hears {S E T : Type} [Engine S E] (share : S → T) (heard : List (Token × Event))
    (c c' : Course S E) : Prop where
  memory : share c'.now.world.memory = share c.now.world.memory
  heard : History.heard c'.now.history = History.heard c.now.history ++ heard
  emitted : History.emitted c'.now.history = History.emitted c.now.history
  calls : c'.calls = c.calls

namespace Course

variable {S E T : Type} [Engine S E] {share : S → T} {c c' c'' : Course S E}

theorem Hears.trans {heard heard' : List (Token × Event)} (h : Hears share heard c c')
    (h' : Hears share heard' c' c'') : Hears share (heard ++ heard') c c'' where
  memory := h'.memory.trans h.memory
  heard := by
    rw [h'.heard, h.heard, List.append_assoc]
  emitted := h'.emitted.trans h.emitted
  calls := h'.calls.trans h.calls

section Moves

variable {move : Move S E}
    (hmemory : share (c.now.move move).world.memory = share c.now.world.memory)
    (hcalls : c.now.calls move = [])

include hmemory hcalls

theorem hears_of_same (hhistory : (c.now.move move).history = c.now.history)
    : Hears share [] c (c.push move) where
  memory := hmemory
  heard := by
    rw [now_push, hhistory, List.append_nil]
  emitted := by
    rw [now_push, hhistory]
  calls := by
    rw [calls_push, hcalls, List.append_nil]

theorem hears_of_record {entry : Record} {heard : List (Token × Event)}
    (hhistory : (c.now.move move).history = entry :: c.now.history)
    (hheard : ∀ past, History.heard (entry :: past) = History.heard past ++ heard)
    (hemitted : ∀ past, History.emitted (entry :: past) = History.emitted past)
    : Hears share heard c (c.push move) where
  memory := hmemory
  heard := by
    rw [now_push, hhistory, hheard]
  emitted := by
    rw [now_push, hhistory, hemitted]
  calls := by
    rw [calls_push, hcalls, List.append_nil]

end Moves

theorem hears_dispatch (underway : Bool) : Hears share [] c (c.push (.dispatch underway)) := by
  exact hears_of_same rfl rfl rfl

theorem hears_take {event : Event} {rest : List Event}
    (hpending : c.now.runner.pending = event :: rest)
    : Hears share [] c (c.push .take) := by
  have hmemory : share (c.now.move .take).world.memory = share c.now.world.memory := by
    rw [Session.move, Session.take_eq hpending]
    rfl
  exact hears_of_record hmemory rfl (Session.history_take hpending)
    (fun _ => (List.append_nil _).symm) fun _ => rfl

theorem hears_enter (token : Token) (event : Event)
    : Hears share [(token, event)] c (c.push (.enter token event)) := by
  exact hears_of_record rfl rfl (Session.history_enter token event) (fun _ => rfl) fun _ => rfl

theorem hears_leave (token : Token) : Hears share [] c (c.push (.leave token)) := by
  exact hears_of_record rfl rfl (Session.history_leave token) (fun _ => (List.append_nil _).symm)
    fun _ => rfl

section Passive

theorem runs_request {request : Operation S E} (hpassive : request.Passive share)
    : ∃ reply, outcome (Walk.perform request) c = (some reply, c.push (.perform request)) ∧
        Hears share [] c (c.push (.perform request)) ∧
        (c.push (.perform request)).now.runner = c.now.runner := by
  cases request with
  | look => exact ⟨_, rfl, hears_of_same rfl rfl rfl, rfl⟩
  | «recall» => exact ⟨_, rfl, hears_of_same rfl rfl rfl, rfl⟩
  | note => exact ⟨_, rfl, hears_of_same rfl rfl (Session.history_record_note rfl), rfl⟩
  | log => exact ⟨_, rfl, hears_of_same rfl rfl (Session.history_record_note rfl), rfl⟩
  | remember => exact ⟨_, rfl, hears_of_same (hpassive _) rfl rfl, rfl⟩
  | _ => exact absurd hpassive id

theorem runs_program (p : Program S E) (hpassive : p.Passive share)
    : ∃ c', outcome (Walk.program Walk.perform p) c = (some (), c') ∧ Hears share [] c c' ∧
        c'.now.runner = c.now.runner := by
  induction p generalizing c with
  | done => exact ⟨c, rfl, ⟨rfl, (List.append_nil _).symm, rfl, rfl⟩, rfl⟩
  | perform request next ih =>
    obtain ⟨hrequest, hnext⟩ := hpassive
    obtain ⟨reply, hperform, hhears, hrunner⟩ := runs_request (c := c) hrequest
    obtain ⟨c', hrest, hhears', hrunner'⟩ := ih reply (c := c.push (.perform request)) (hnext reply)
    refine ⟨c', ?_, hhears.trans hhears', hrunner'.trans hrunner⟩
    unfold Walk.program
    rw [outcome_bind, hperform]
    exact hrest
  | subscribe => exact absurd hpassive id

theorem deliver_cons {event : Event} {token : Token}
    {handler : Handler S E} {rest : List (Token × Handler S E)}
    (hprogram : outcome (Walk.program Walk.perform (handler event)) (c.push (.enter token event))
      = (some (), c')) (hregistry : c'.now.runner.registry.isEmpty = false)
    : outcome (Walk.deliver event ((token, handler) :: rest)) c
        =
      outcome (Walk.deliver event rest) (c'.push (.leave token)) := by
  have hleave : (c'.now.move (.leave token)).runner.registry.isEmpty = false := hregistry
  simp [Walk.deliver, Walk.move, Walk.look, hprogram, hleave]

theorem drain_cons {event : Event} {rest : List Event}
    (hpending : c.now.runner.pending = event :: rest)
    (hdeliver : outcome (Walk.deliver event (c.now.runner.registry.handlers event.kind))
      (c.push .take) = (some (), c'))
    (bound : Nat)
    : outcome (Walk.drain (bound + 1)) c = outcome (Walk.drain bound) c' := by
  simp [Walk.drain, Walk.look, Walk.move, hpending, hdeliver]

/--
Whether a delivery of all queued events comes to an end, and where the run then is.
-/
def Drains (c c' : Course S E) : Prop :=
  ∃ bound, outcome (Walk.drain bound) c = (some (), c')

theorem drain_nil (hpending : c.now.runner.pending = []) (bound : Nat)
    : outcome (Walk.drain (bound + 1)) c = (some (), c) := by
  simp [Walk.drain, Walk.look, hpending]

theorem drains_nil (hpending : c.now.runner.pending = []) : c.Drains c' ↔ c' = c := by
  constructor
  . rintro ⟨bound, hdone⟩
    cases bound with
    | zero => cases hdone
    | succ bound =>
      rw [drain_nil hpending] at hdone
      cases hdone
      rfl
  . intro heq
    exact ⟨1, heq ▸ drain_nil hpending 0⟩

theorem drains_of_drain
    (hdrain : ∀ bound, outcome (Walk.drain (bound + 1)) c = outcome (Walk.drain bound) c')
    : c.Drains c'' ↔ c'.Drains c'' := by
  constructor
  . rintro ⟨bound, hdone⟩
    cases bound with
    | zero => cases hdone
    | succ bound => exact ⟨bound, (hdrain bound).symm.trans hdone⟩
  . rintro ⟨bound, hdone⟩
    exact ⟨bound + 1, (hdrain bound).trans hdone⟩

/--
Whether what a request from outside of any handler has queued is delivered, and where the run then
is.
-/
def Settles (c c' : Course S E) : Prop :=
  ∃ bound, outcome (Walk.settle bound) c = (some (), c')

theorem settles_of_isSome (bound : Nat) (hdone : (outcome (Walk.settle bound) c).1.isSome = true)
    : c.Settles (outcome (Walk.settle bound) c).2 := by
  obtain ⟨_, heq⟩ := Option.isSome_iff_exists.mp hdone
  exact ⟨bound, Prod.ext heq rfl⟩

theorem settle_nil (hpending : c.now.runner.pending = []) (bound : Nat)
    : outcome (Walk.settle bound) c = (some (), c) := by
  simp [Walk.settle, Walk.look, hpending]

theorem settles_nil (hpending : c.now.runner.pending = []) : c.Settles c' ↔ c' = c := by
  simp [Settles, settle_nil hpending, eq_comm]

theorem settle_cons {event : Event} {rest : List Event}
    (hpending : c.now.runner.pending = event :: rest) (bound : Nat)
    : outcome (Walk.settle bound) c
        =
      outcome (do Walk.drain bound; Walk.move (.dispatch false)) (c.push (.dispatch true)) := by
  simp [Walk.settle, Walk.look, Walk.move, hpending]

theorem settles_cons {event : Event} {rest : List Event}
    (hpending : c.now.runner.pending = event :: rest)
    : c.Settles c' ↔ ∃ c₁, (c.push (.dispatch true)).Drains c₁ ∧
        c' = c₁.push (.dispatch false) := by
  have hsettle := settle_cons hpending
  constructor
  . rintro ⟨bound, hdone⟩
    rw [hsettle, outcome_bind] at hdone
    cases hdrained : outcome (Walk.drain bound) (c.push (.dispatch true)) with
    | mk result c₁ =>
      rw [hdrained] at hdone
      cases result with
      | none => cases hdone
      | some _ =>
        cases hdone
        exact ⟨c₁, ⟨bound, hdrained⟩, rfl⟩
  . rintro ⟨c₁, ⟨bound, hdone⟩, heq⟩
    refine ⟨bound, ?_⟩
    rw [hsettle, outcome_bind, hdone, heq]
    rfl

def Listen (share : S → T) (handlers : List (Token × Handler S E)) : Prop :=
  ∀ entry ∈ handlers, ∀ event, (entry.2 event).Passive share

-- The handlers that follow may be any, so that a handler that does more can stand among those that
-- only listen.
theorem deliver_listeners (event : Event)
    {handlers : List (Token × Handler S E)} (hlisten : Listen share handlers)
    (hregistry : handlers ≠ [] → c.now.runner.registry.isEmpty = false)
    (rest : List (Token × Handler S E))
    : ∃ c', Hears share (event.told handlers) c c' ∧
        c'.now.runner = c.now.runner ∧
        outcome (Walk.deliver event (handlers ++ rest)) c
          = outcome (Walk.deliver event rest) c' := by
  induction handlers generalizing c with
  | nil => exact ⟨c, ⟨rfl, (List.append_nil _).symm, rfl, rfl⟩, rfl, rfl⟩
  | cons entry handlers ih =>
    obtain ⟨token, handler⟩ := entry
    obtain ⟨hhandler, hlisten⟩ := List.forall_mem_cons.mp hlisten
    obtain ⟨c₁, hprogram, hhears, hrunner⟩ :=
      runs_program (c := c.push (.enter token event)) _ (hhandler event)
    have hleft : (c₁.push (.leave token)).now.runner = c.now.runner := hrunner
    have hnonempty : c.now.runner.registry.isEmpty = false := hregistry (by simp)
    obtain ⟨c', hhears', hrunner', hrest⟩ := ih (c := c₁.push (.leave token)) hlisten (by
      intro _
      rw [hleft]
      exact hnonempty)
    refine ⟨c', ?_, hrunner'.trans hleft, ?_⟩
    . exact (((hears_enter token event).trans hhears).trans (hears_leave token)).trans hhears'
    . have hregistry : c₁.now.runner.registry.isEmpty = false := by
        rw [hrunner]
        exact hnonempty
      rw [← hrest]
      exact deliver_cons hprogram hregistry

theorem deliver_among (event : Event) (token : Token)
    (handler : Handler S E) {front back : List (Token × Handler S E)} (hfront : Listen share front)
    (hback : Listen share back) (hregistry : c.now.runner.registry.isEmpty = false)
    : ∃ c₁, Hears share (event.told front ++ [(token, event)]) c c₁ ∧
        c₁.now.runner = c.now.runner ∧
        ∀ c₂, outcome (Walk.program Walk.perform (handler event)) c₁ = (some (), c₂) →
          c₂.now.runner.registry = c.now.runner.registry →
            ∃ c₃, Hears share (event.told back) c₂ c₃ ∧
              c₃.now.runner = c₂.now.runner ∧
              outcome (Walk.deliver event (front ++ (token, handler) :: back)) c
                = (some (), c₃) := by
  obtain ⟨c', hhears, hrunner, hdeliver⟩ := deliver_listeners event hfront (fun _ => hregistry)
    ((token, handler) :: back)
  refine ⟨c'.push (.enter token event), hhears.trans (hears_enter token event), hrunner, ?_⟩
  intro c₂ hprogram hsame
  have hnonempty : c₂.now.runner.registry.isEmpty = false := by
    rw [hsame]
    exact hregistry
  obtain ⟨c₃, hhears', hrunner', hrest⟩ :=
    deliver_listeners (c := c₂.push (.leave token)) event hback (fun _ => hnonempty) []
  rw [List.append_nil] at hrest
  refine ⟨c₃, (hears_leave token).trans hhears', hrunner', ?_⟩
  rw [hdeliver, deliver_cons hprogram hnonempty, hrest]
  rfl

theorem drain_listeners {event : Event} {rest : List Event}
    (hpending : c.now.runner.pending = event :: rest)
    (hlisten : Listen share (c.now.runner.registry.handlers event.kind))
    : ∃ c', Hears share (event.told (c.now.runner.registry.handlers event.kind)) c c' ∧
        c'.now.runner = { c.now.runner with pending := rest } ∧
        ∀ bound, outcome (Walk.drain (bound + 1)) c = outcome (Walk.drain bound) c' := by
  have htaken : (c.push .take).now.runner = { c.now.runner with pending := rest } := by
    rw [now_push, Session.move, Session.take_eq hpending]
    rfl
  obtain ⟨c', hhears, hrunner, hdeliver⟩ := deliver_listeners (c := c.push .take) event hlisten (by
    intro hhandlers
    rw [htaken]
    exact Registry.isEmpty_of_handlers hhandlers) []
  rw [List.append_nil] at hdeliver
  exact ⟨c', (hears_take hpending).trans hhears, hrunner.trans htaken, drain_cons hpending hdeliver⟩

theorem settle_listeners {event : Event} (hpending : c.now.runner.pending = [event])
    (hlisten : Listen share (c.now.runner.registry.handlers event.kind))
    : ∃ c', Hears share (event.told (c.now.runner.registry.handlers event.kind)) c c' ∧
        c'.now.runner = { c.now.runner with pending := [], dispatching := false } ∧
        ∀ c'', c.Settles c'' ↔ c'' = c' := by
  obtain ⟨c₁, hhears, hrunner, hdrain⟩ :=
    drain_listeners (c := c.push (.dispatch true)) hpending hlisten
  have hpending₁ : c₁.now.runner.pending = [] := by
    rw [hrunner]
  refine ⟨c₁.push (.dispatch false), ?_, ?_, ?_⟩
  . have hheard := ((hears_dispatch true).trans hhears).trans (hears_dispatch false)
    rwa [List.nil_append, List.append_nil] at hheard
  . change { c₁.now.runner with dispatching := false } = _
    rw [hrunner]
    rfl
  . intro c''
    simp [settles_cons hpending, drains_of_drain hdrain, drains_nil hpending₁]

-- A handler among those that only listen may do what it likes, as long as it leaves all handlers
-- subscribed.
theorem drain_among {event : Event} {rest : List Event} {front back : List (Token × Handler S E)}
    {token : Token} {handler : Handler S E} (hpending : c.now.runner.pending = event :: rest)
    (hhandlers : c.now.runner.registry.handlers event.kind = front ++ (token, handler) :: back)
    (hlisten : Listen share (front ++ back))
    : ∃ c₁, Hears share (event.told front ++ [(token, event)]) c c₁ ∧
        c₁.now.runner = { c.now.runner with pending := rest } ∧
        ∀ c₂, outcome (Walk.program Walk.perform (handler event)) c₁ = (some (), c₂) →
          c₂.now.runner.registry = c.now.runner.registry →
            ∃ c₃, Hears share (event.told back) c₂ c₃ ∧ c₃.now.runner = c₂.now.runner ∧
              ∀ bound, outcome (Walk.drain (bound + 1)) c = outcome (Walk.drain bound) c₃ := by
  have hfront : Listen share front :=
    fun entry hentry => hlisten entry (List.mem_append_left back hentry)
  have hback : Listen share back :=
    fun entry hentry => hlisten entry (List.mem_append_right front hentry)
  have htaken : (c.push .take).now.runner = { c.now.runner with pending := rest } := by
    rw [now_push, Session.move, Session.take_eq hpending]
    rfl
  have hregistry : (c.push .take).now.runner.registry.isEmpty = false := by
    rw [htaken]
    refine Registry.isEmpty_of_handlers (?_ : c.now.runner.registry.handlers event.kind ≠ [])
    rw [hhandlers]
    simp
  obtain ⟨c₁, hhears, hrunner, hdeliver⟩ :=
    deliver_among (c := c.push .take) event token handler hfront hback hregistry
  refine ⟨c₁, (hears_take hpending).trans hhears, hrunner.trans htaken, ?_⟩
  intro c₂ hprogram hsame
  obtain ⟨c₃, hhears', hrunner', hdone⟩ := hdeliver c₂ hprogram (by
    rw [hsame, htaken])
  rw [← hhandlers] at hdone
  exact ⟨c₃, hhears', hrunner', drain_cons hpending hdone⟩

end Passive

end Course

end Parley
