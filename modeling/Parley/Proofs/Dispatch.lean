import Parley.Proofs.Sound

/-!
This module contains that every run follows the laws of histories. The argument goes from the inside
to the outside: a program of a handler leaves the delivery that it is called in as it is, the
delivery of an event calls its handlers one after the other, draining the queue delivers one event
after the other, and an emission from outside of any handler drains the queue.
-/

namespace Parley

namespace Session

variable {S E : Type} {s s' : Session S E}

/--
Whether a session is sound and this far in a delivery: the handlers that are at work, those that are
still to be called and the event are given.
-/
structure Poised (dispatching : Bool) (working waiting : List Token) (occasion : Option Event)
    (s : Session S E) : Prop where
  sound : Sound s
  steady : s.history.head? ≠ some .stopping
  dispatching : s.runner.dispatching = dispatching
  working : History.inProgress s.history = working
  waiting : History.waiting s.history = waiting
  occasion : History.occasion s.history = occasion

namespace Poised

variable {dispatching : Bool} {working waiting : List Token} {occasion : Option Event}

theorem of_cons {entry : Record} (h : Poised dispatching working waiting occasion s)
    (hhistory : s'.history = entry :: s.history) (hentry : History.isAside entry = true)
    (hsteady : entry ≠ .stopping) (hd : s'.runner.dispatching = s.runner.dispatching)
    (sound : Sound s') : Poised dispatching working waiting occasion s' where
  sound := sound
  steady := by simp [hhistory, hsteady]
  dispatching := by rw [hd, h.dispatching]
  working := by rw [hhistory, History.inProgress_cons hentry, h.working]
  waiting := by rw [hhistory, History.waiting_cons hentry, h.waiting]
  occasion := by rw [hhistory, History.occasion_cons hentry, h.occasion]

theorem kept (hw : working = [] → waiting = [])
    : Run.Kept (Poised dispatching working waiting occasion : Session S E → Prop) where
  quiet hq h := {
    sound := h.sound.quiet hq
    steady := by rw [hq.history]; exact h.steady
    dispatching := by rw [hq.dispatching]; exact h.dispatching
    working := by rw [hq.history]; exact h.working
    waiting := by rw [hq.history]; exact h.waiting
    occasion := by rw [hq.history]; exact h.occasion }
  adopt story hnone h := by
    apply h.of_cons (history_adopt story) rfl (by simp) rfl
    exact h.sound.adopt h.steady story hnone
  subscribe kind handler h := by
    apply h.of_cons (history_subscribe kind handler) rfl (by simp) rfl
    exact h.sound.subscribe h.steady kind handler
  unsubscribe {s} token h := by
    have hsound := h.sound.unsubscribe h.steady token
    rcases unsubscribe_cases s token with hnone | ⟨registry, _, hhistory, hrunner⟩
    . rw [hnone]
      exact h
    . apply h.of_cons hhistory rfl (by simp) _ hsound
      rw [hrunner]
  tearDown h := by
    apply h.of_cons history_tearDown rfl (by simp) rfl
    apply h.sound.tearDown h.steady
    rw [h.working, h.waiting]
    exact hw

theorem enqueue (h : Poised dispatching working waiting occasion s) {event : Event}
    (hevent : event ≠ .stopped)
    : Poised dispatching working waiting occasion (s.enqueue event) := by
  apply h.of_cons (history_enqueue event) rfl (by simp) rfl
  exact h.sound.enqueue (by simp [h.steady, hevent])

theorem announce (h : Poised dispatching working waiting occasion s)
    (hactive : s.runner.story.isSome = true)
    : Poised dispatching working waiting occasion ((s.record .stopping).enqueue .stopped) := by
  have hhistory : (s.record .stopping).history = .stopping :: s.history := history_record rfl
  have hsound : Sound (s.record .stopping) := by
    apply Sound.of_cons hhistory _ h.sound.handlers h.sound.next h.sound.pending h.sound.active
    exact h.sound.cons_lawful h.steady (by simp) (h.sound.active.symm.trans hactive)
  -- The session is not steady between the two entries, so that both are added at once.
  exact {
    sound := hsound.enqueue (by simp [hhistory])
    steady := by simp
    dispatching := h.dispatching
    working := by rw [history_enqueue, hhistory]; exact h.working
    waiting := by rw [history_enqueue, hhistory]; exact h.waiting
    occasion := by rw [history_enqueue, hhistory]; exact h.occasion }

theorem release (h : Poised dispatching working waiting occasion s)
    : Poised dispatching working waiting occasion s.release := by
  apply h.of_cons history_release rfl (by simp) rfl
  exact h.sound.release h.steady

theorem withDispatching (h : Poised dispatching working waiting occasion s) (dispatching' : Bool)
    : Poised dispatching' working waiting occasion
        (s.mapRunner ({ · with dispatching := dispatching' })) :=
  ⟨h.sound.withDispatching dispatching', h.steady, rfl, h.working, h.waiting, h.occasion⟩

-- The handlers that an event is delivered to are those that the registry has when the delivery
-- begins.
theorem take {event : Event} {rest : List Event} (h : Poised dispatching [] [] occasion s)
    (hpending : s.runner.pending = event :: rest)
    : Poised dispatching [] ((s.runner.registry.handlers event.kind).map (·.1)) (some event)
        ((s.mapRunner ({ · with pending := rest })).record (.delivering event)) := by
  have hhistory : ((s.mapRunner ({ · with pending := rest })).record (.delivering event)).history
      = .delivering event :: s.history := by
    rw [history_record rfl, history_mapRunner]
  have hqueue := h.sound.pending
  rw [hpending] at hqueue
  refine ⟨?sound, by simp [hhistory], h.dispatching, ?working, ?waiting, by rw [hhistory]; rfl⟩
  case sound =>
    apply Sound.of_cons hhistory _ h.sound.handlers h.sound.next _ h.sound.active
    . apply h.sound.cons_lawful h.steady (by simp)
      exact ⟨h.working, h.waiting, by rw [← hqueue]; rfl⟩
    . rw [History.pending, ← hqueue]
      rfl
  case working =>
    rw [hhistory]
    exact h.working
  case waiting =>
    rw [hhistory]
    exact (h.sound.handlers event.kind).symm

theorem enter {token : Token} {rest : List Token} {event : Event}
    (h : Poised dispatching [] (token :: rest) (some event) s) (status : Status)
    : Poised dispatching [token] rest (some event) (s.record (.entered token event status)) := by
  have hhistory : (s.record (.entered token event status)).history
      = .entered token event status :: s.history := history_record rfl
  refine ⟨?sound, by simp [hhistory], h.dispatching, ?working, ?waiting, ?occasion⟩
  case sound =>
    apply Sound.of_cons hhistory _ h.sound.handlers h.sound.next h.sound.pending h.sound.active
    apply h.sound.cons_lawful h.steady (by simp)
    exact ⟨h.working, h.occasion, by rw [h.waiting]; rfl⟩
  case working => rw [hhistory, History.inProgress, h.working]
  case waiting => rw [hhistory, History.waiting, h.waiting, List.tail_cons]
  case occasion =>
    rw [hhistory]
    exact h.occasion

theorem leave {token : Token} (h : Poised dispatching [token] waiting occasion s)
    : Poised dispatching [] (if s.runner.registry.isEmpty then [] else waiting) occasion
        (s.record (.left token)) := by
  have hhistory : (s.record (.left token)).history = .left token :: s.history := history_record rfl
  have hempty : (History.live s.history).isEmpty = s.runner.registry.isEmpty := by
    rw [Bool.eq_iff_iff, List.isEmpty_iff, Registry.isEmpty_iff h.sound.handlers]
  refine ⟨?sound, by simp [hhistory], h.dispatching, ?working, ?waiting, ?occasion⟩
  case sound =>
    apply Sound.of_cons hhistory _ h.sound.handlers h.sound.next h.sound.pending h.sound.active
    exact h.sound.cons_lawful h.steady (by simp) h.working
  case working => simp [hhistory, History.inProgress, h.working]
  case waiting => rw [hhistory, History.waiting, hempty, h.waiting]
  case occasion =>
    rw [hhistory]
    exact h.occasion

end Poised

end Session

namespace Run

open Session

variable {S E : Type} [Engine S E] {s : Session S E} {cut : Session S E → Prop}

section Handler

variable {drain : Run S E Unit} {working waiting : List Token} {occasion : Option Event}

omit [Engine S E] in
theorem ends_emitWith_dispatching {post : Unit → Session S E → Prop} (event : Event)
    (hd : s.runner.dispatching = true)
    : Ends (emitWith drain event) s post cut ↔ post () (s.enqueue event) := by
  unfold emitWith
  simp [hd]

theorem ends_handler (hw : working = [] → waiting = []) (p : Program S E)
    (h : Poised true working waiting occasion s)
    : Ends (program (emitWith drain) p) s (fun _ => Poised true working waiting occasion) cut := by
  apply ends_program (Poised.kept hw) _ _ h
  . intro event s hevent h
    rw [ends_emitWith_dispatching event h.dispatching]
    exact h.enqueue hevent
  . intro s h
    unfold stop
    simp only [ends_bind, ends_get]
    split
    . next hactive =>
      have hd : (s.record .stopping).runner.dispatching = true := h.dispatching
      simp only [ends_bind, ends_modify]
      rw [ends_emitWith_dispatching .stopped hd]
      exact (h.announce hactive).release
    . simpa using h

end Handler

theorem ends_deliver {drain : Run S E Unit} {event : Event} {handlers : List (Token × Handler S E)}
    (h : Poised true [] (handlers.map (·.1)) (some event) s)
    : Ends (deliver (program (emitWith drain)) event handlers) s
        (fun _ => Poised true [] [] (some event)) cut := by
  induction handlers generalizing s with
  | nil => exact h
  | cons entry rest ih =>
    obtain ⟨token, handler⟩ := entry
    unfold deliver
    simp only [ends_bind, ends_modify]
    have henter := h.enter s.runner.status
    apply (ends_handler (by simp) (handler event) henter).mono
    . intro _ s h
      have hleave := h.leave
      simp only [ends_get]
      have hregistry : (s.record (.left token)).runner.registry = s.runner.registry := rfl
      rw [hregistry]
      split
      . next hempty =>
        simpa [hempty] using hleave
      . next hnonempty =>
        simp only [hnonempty] at hleave
        exact ih hleave
    . intro s hcut
      exact hcut

theorem ends_drain (bound : Nat) {occasion : Option Event} (h : Poised true [] [] occasion s)
    : Ends (drain bound) s
        (fun _ s => s.runner.pending = [] ∧ ∃ occasion, Poised true [] [] occasion s)
        (fun s => ∃ occasion, Poised true [] [] occasion s) := by
  induction bound generalizing s occasion with
  | zero => exact ⟨occasion, h⟩
  | succ bound ih =>
    unfold drain
    simp only [ends_bind, ends_get]
    split
    . next hpending => exact ⟨hpending, occasion, h⟩
    . next event rest hpending =>
      simp only [ends_bind, ends_set]
      apply (ends_deliver (h.take hpending)).mono
      . intro _ s h
        exact ih h
      . intro s hcut
        exact hcut

end Run

namespace Session

variable {S E : Type} {s : Session S E}

/--
Whether a session is sound and nothing is left to be done in it.
-/
structure Resting (s : Session S E) : Prop where
  poised : ∃ occasion, Poised false [] [] occasion s
  pending : s.runner.pending = []

theorem Resting.new (options : LoadOptions) (memory : S)
    : Resting (Session.new options memory : Session S E) where
  poised := by
    refine ⟨none, ⟨.nil, Registry.tracks_empty, rfl, rfl, rfl⟩, ?_, rfl, rfl, rfl, rfl⟩
    simp [Session.new, history]
  pending := rfl

theorem Resting.kept : Run.Kept (Resting : Session S E → Prop) where
  quiet hq h := by
    obtain ⟨occasion, hp⟩ := h.poised
    exact ⟨⟨occasion, (Poised.kept (by simp)).quiet hq hp⟩, hq.pending.trans h.pending⟩
  adopt story hnone h := by
    obtain ⟨occasion, hp⟩ := h.poised
    exact ⟨⟨occasion, (Poised.kept (by simp)).adopt story hnone hp⟩, h.pending⟩
  subscribe kind handler h := by
    obtain ⟨occasion, hp⟩ := h.poised
    exact ⟨⟨occasion, (Poised.kept (by simp)).subscribe kind handler hp⟩, h.pending⟩
  unsubscribe {s} token h := by
    obtain ⟨occasion, hp⟩ := h.poised
    refine ⟨⟨occasion, (Poised.kept (by simp)).unsubscribe token hp⟩, ?_⟩
    rcases unsubscribe_cases s token with hnone | ⟨registry, _, _, hrunner⟩
    . rw [hnone]
      exact h.pending
    . rw [hrunner]
      exact h.pending
  tearDown h := by
    obtain ⟨occasion, hp⟩ := h.poised
    exact ⟨⟨occasion, (Poised.kept (by simp)).tearDown hp⟩, rfl⟩

end Session

namespace Run

open Session

variable {S E : Type} [Engine S E] {s : Session S E}

theorem ends_emitWith {bound : Nat} {event : Event} {occasion : Option Event}
    (h : Poised false [] [] occasion (s.enqueue event))
    : Ends (emitWith (drain bound) event) s (fun _ => Resting)
        (fun s => ∃ occasion, Poised true [] [] occasion s) := by
  have hd : (s.enqueue event).runner.dispatching = false := h.dispatching
  unfold emitWith
  simp only [ends_bind, ends_modify, ends_get, hd, Bool.false_eq_true, ↓reduceIte]
  apply (ends_drain bound (h.withDispatching true)).mono
  . rintro _ s ⟨hpending, occasion, h⟩
    exact ⟨⟨occasion, h.withDispatching false⟩, hpending⟩
  . intro s hcut
    exact hcut

theorem ends_host (bound : Nat) (host : Program S E) (h : Resting s)
    : Ends (program (emitWith (drain bound)) host) s (fun _ => Resting)
        (fun s => ∃ occasion, Poised true [] [] occasion s) := by
  apply ends_program Resting.kept _ _ h
  . intro event s hevent h
    obtain ⟨occasion, hp⟩ := h.poised
    exact ends_emitWith (hp.enqueue hevent)
  . intro s h
    obtain ⟨occasion, hp⟩ := h.poised
    unfold stop
    simp only [ends_bind, ends_get]
    split
    . next hactive =>
      simp only [ends_bind, ends_modify]
      apply (ends_emitWith (hp.announce hactive)).mono
      . intro _ s h
        obtain ⟨occasion, hp⟩ := h.poised
        exact ⟨⟨occasion, hp.release⟩, h.pending⟩
      . intro s hcut
        exact hcut
    . simpa using h

end Run

namespace Session

variable {S E : Type} [Engine S E]

theorem Resting.run {s : Session S E} (h : Resting s) (bound : Nat) (host : Program S E)
    (hdone : (s.run bound host).1.isSome = true) : Resting (s.run bound host).2 := by
  have hends := Run.ends_host bound host h
  unfold Run.Ends at hends
  unfold Session.run at hdone ⊢
  split at hends
  . next heq =>
    rw [heq]
    exact hends
  . next heq =>
    rw [heq] at hdone
    simp at hdone

/--
Does what one request asks for from outside of any handler, as far as it gets.
-/
def request (s : Session S E) (bound : Nat) (operation : Operation S E)
    : Option operation.Reply × Session S E :=
  (Run.operation (Run.emitWith (Run.drain bound)) operation).run.run s

theorem run_perform (s : Session S E) (bound : Nat) (operation : Operation S E)
    (next : operation.Reply → Program S E)
    : s.run bound (.perform operation next)
        =
      match s.request bound operation with
      | (some reply, s') => s'.run bound (next reply)
      | (none, s') => (none, s') := by
  unfold run request
  rw [Run.program, OptionT.run_bind, Option.elimM, StateT.run_bind]
  generalize (Run.operation (Run.emitWith (Run.drain bound)) operation).run.run s = ended
  rcases ended with ⟨_ | reply, s'⟩
  . rfl
  . rfl

theorem Resting.request {s s' : Session S E} (h : Resting s) {bound : Nat}
    {operation : Operation S E} {reply : operation.Reply}
    (hdone : s.request bound operation = (some reply, s')) : Resting s' := by
  have hrun : s.run bound (.perform operation fun _ => .done) = (some (), s') := by
    rw [run_perform, hdone]
    rfl
  have hdone : (s.run bound (.perform operation fun _ => .done)).1.isSome = true := by
    rw [hrun]
    rfl
  have hrest := h.run bound _ hdone
  rw [hrun] at hrest
  exact hrest

variable (options : LoadOptions) (memory : S) (bound : Nat) (host : Program S E)

theorem settled_run : ∃ dispatching occasion,
    Poised dispatching [] [] occasion ((Session.new options memory).run bound host).2 := by
  have hends := Run.ends_host bound host (Resting.new options memory)
  unfold Run.Ends at hends
  unfold run
  split at hends
  . next heq =>
    rw [heq]
    exact ⟨false, hends.poised⟩
  . next heq =>
    rw [heq]
    exact ⟨true, hends⟩

theorem lawful_run : History.Lawful ((Session.new options memory).run bound host).2.history := by
  obtain ⟨_, _, h⟩ := settled_run options memory bound host
  exact h.sound.lawful

theorem waiting_run
    : History.waiting ((Session.new options memory).run bound host).2.history = [] := by
  obtain ⟨_, _, h⟩ := settled_run options memory bound host
  exact h.waiting

end Session

end Parley
