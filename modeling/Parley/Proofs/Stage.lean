import Parley.Proofs.Change
import Parley.Proofs.Dispatch

/-!
This module contains where a run can stand. `Staged` says move by move how a run gets from one stage
to the next, so that what holds at every stage of a run is shown by induction on its moves.
-/

namespace Parley

inductive Stage (S E : Type) where
  /-- No delivery is under way. -/
  | outside (stopping : Bool)
  /-- The next event is to be taken from the queue. -/
  | draining (stopping : Bool)
  /-- An event is being delivered, and these are its handlers that are still to be called. -/
  | delivering (stopping : Bool) (event : Event) (handlers : List (Token × Handler S E))
  /-- A handler of an event is at work, and these are still to be called. -/
  | working (stopping : Bool) (event : Event) (token : Token)
      (handlers : List (Token × Handler S E))

/--
The moves that a run can make at a stage, and the stages that they lead to.
-/
inductive Stage.Step {S E : Type} [Engine S E] (s : Session S E)
    : Stage S E → Move S E → Stage S E → Prop where
  | perform (settled : s.runner.pending = []) (request : Operation S E)
      (plain : Run.isPlain request = true)
      : Step s (.outside false) (.perform request) (.outside false)
  | subscribe (settled : s.runner.pending = []) (kind : EventKind) (handler : Handler S E)
      : Step s (.outside false) (.subscribe kind handler) (.outside false)
  | announce (settled : s.runner.pending = []) (present : s.runner.story.isSome = true)
      : Step s (.outside false) .announce (.outside true)
  | release (settled : s.runner.pending = []) : Step s (.outside true) .release (.outside false)
  | dispatch {stopping : Bool} (queued : s.runner.pending ≠ [])
      : Step s (.outside stopping) (.dispatch true) (.draining stopping)
  | settle {stopping : Bool} (settled : s.runner.pending = [])
      : Step s (.draining stopping) (.dispatch false) (.outside stopping)
  | take {stopping : Bool} {event : Event} {rest : List Event}
      (queued : s.runner.pending = event :: rest)
      : Step s (.draining stopping) .take
          (.delivering stopping event (s.runner.registry.handlers event.kind))
  | enter {stopping : Bool} {event : Event} {token : Token} {handler : Handler S E}
      {rest : List (Token × Handler S E)}
      : Step s (.delivering stopping event ((token, handler) :: rest)) (.enter token event)
          (.working stopping event token rest)
  | request {stopping : Bool} {event : Event} {token : Token} {rest : List (Token × Handler S E)}
      (request : Operation S E)
      : Step s (.working stopping event token rest) (.perform request)
          (.working stopping event token rest)
  | enroll {stopping : Bool} {event : Event} {token : Token} {rest : List (Token × Handler S E)}
      (kind : EventKind) (handler : Handler S E)
      : Step s (.working stopping event token rest) (.subscribe kind handler)
          (.working stopping event token rest)
  | leave {stopping : Bool} {event : Event} {token : Token} {rest : List (Token × Handler S E)}
      : Step s (.working stopping event token rest) (.leave token)
          (.delivering stopping event (if s.runner.registry.isEmpty then [] else rest))

/--
The courses that lead to a stage.
-/
inductive Staged {S E : Type} [Engine S E] : Stage S E → Course S E → Prop where
  | begin (options : LoadOptions) (memory : S)
      : Staged (.outside false) ⟨Session.new options memory, []⟩
  | push {stage stage' : Stage S E} {c : Course S E} {move : Move S E} (before : Staged stage c)
      (step : stage.Step c.now move stage') : Staged stage' (c.push move)
  | delivered {stopping : Bool} {event : Event} {c : Course S E}
      (before : Staged (.delivering stopping event []) c) : Staged (.draining stopping) c

namespace Session

variable {S E : Type} [Engine S E] {s : Session S E}

theorem Poised.perform {dispatching : Bool} {working waiting : List Token} {occasion : Option Event}
    (hw : working = [] → waiting = []) (h : Poised dispatching working waiting occasion s)
    (request : Operation S E)
    : Poised dispatching working waiting occasion (s.perform request).2 := by
  apply perform_keeps (Poised dispatching working waiting occasion) request _ h
  intro t t' hchange ht
  cases hchange with
  | @decided event decided hdecides =>
    have hdecided := (Poised.kept hw).decides hdecides ht
    cases event with
    | none => exact hdecided
    | some event => exact hdecided.enqueue hdecides.ne_stopped
  | stopped _ hpresent => exact (ht.announce hpresent).release

end Session

namespace Stage

open Session

variable {S E : Type} {s : Session S E} {stage stage' : Stage S E}

/--
Whether a session is sound and this far in a delivery.
-/
def Describes (s : Session S E) : Stage S E → Prop
  | .outside _ => ∃ occasion, Poised false [] [] occasion s
  | .draining _ => ∃ occasion, Poised true [] [] occasion s
  | .delivering _ event handlers => Poised true [] (handlers.map (·.1)) (some event) s
  | .working _ event token handlers => Poised true [token] (handlers.map (·.1)) (some event) s

theorem Describes.sound (h : stage.Describes s) : Sound s := by
  cases stage with
  | outside =>
    obtain ⟨_, hp⟩ := h
    exact hp.sound
  | draining =>
    obtain ⟨_, hp⟩ := h
    exact hp.sound
  | delivering => exact Poised.sound h
  | working => exact Poised.sound h

theorem Describes.step [Engine S E] {move : Move S E} (h : stage.Describes s)
    (hstep : stage.Step s move stage') : stage'.Describes (s.move move) := by
  cases hstep with
  | perform _ request _ =>
    obtain ⟨occasion, hp⟩ := h
    exact ⟨occasion, hp.perform (by simp) request⟩
  | subscribe _ kind handler =>
    obtain ⟨occasion, hp⟩ := h
    exact ⟨occasion, (Poised.kept (by simp)).subscribe kind handler hp⟩
  | announce _ present =>
    obtain ⟨occasion, hp⟩ := h
    exact ⟨occasion, hp.announce present⟩
  | release _ =>
    obtain ⟨occasion, hp⟩ := h
    exact ⟨occasion, hp.release⟩
  | dispatch _ =>
    obtain ⟨occasion, hp⟩ := h
    exact ⟨occasion, hp.withDispatching true⟩
  | settle _ =>
    obtain ⟨occasion, hp⟩ := h
    exact ⟨occasion, hp.withDispatching false⟩
  | take queued =>
    obtain ⟨occasion, hp⟩ := h
    have htake := hp.take queued
    rw [← take_eq queued] at htake
    exact htake
  | enter => exact Poised.enter h s.runner.status
  | request request => exact Poised.perform (by simp) h request
  | enroll kind handler => exact (Poised.kept (by simp)).subscribe kind handler h
  | leave =>
    have hleave := Poised.leave h
    split
    . next hempty =>
      simp only [hempty, ↓reduceIte] at hleave
      exact hleave
    . next hnonempty =>
      simp only [hnonempty] at hleave
      exact hleave

end Stage

namespace Staged

variable {S E : Type} [Engine S E] {stage : Stage S E} {c past : Course S E}

theorem describes (h : Staged stage c) : stage.Describes c.now := by
  induction h with
  | begin options memory => exact (Session.Resting.new options memory).poised
  | push _ step ih => exact ih.step step
  | delivered _ ih => exact ⟨_, ih⟩

theorem sound (h : Staged stage c) : Session.Sound c.now := by
  exact h.describes.sound

theorem of_extends (h : Staged stage c) (hpast : c.Extends past) : ∃ stage, Staged stage past := by
  induction h with
  | begin options memory =>
    rw [Course.extends_start.mp hpast]
    exact ⟨_, .begin options memory⟩
  | @push _ _ c move before step ih =>
    rcases Course.extends_push.mp hpast with heq | hpast
    . rw [heq]
      exact ⟨_, .push before step⟩
    . exact ih hpast
  | delivered _ ih => exact ih hpast

end Staged
end Parley
