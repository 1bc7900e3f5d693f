import Parley.Proofs.History.Lawful
import Parley.Proofs.Registry
import Parley.Proofs.Run

/-!
This module contains that runs follow the laws of histories. A session is sound if its history is
lawful and its runner is what the history says; every step of a run keeps a session sound, and
between two requests of a host nothing is left to be done.
-/

namespace Parley
namespace Session

variable {S E : Type} {s s' : Session S E}

/--
Whether the history of a session is lawful and tells the state of its runner.
-/
structure Sound (s : Session S E) : Prop where
  lawful : History.Lawful s.history
  handlers : s.runner.registry.Tracks (History.live s.history)
  next : s.runner.registry.next = History.subscriptions s.history
  pending : s.runner.pending = History.pending s.history
  active : s.runner.story.isSome = History.active s.history

namespace Sound

theorem quiet (h : Sound s) (hq : s.Quiet s') : Sound s' where
  lawful := by rw [hq.history]; exact h.lawful
  handlers := by rw [hq.registry, hq.history]; exact h.handlers
  next := by rw [hq.registry, hq.history]; exact h.next
  pending := by rw [hq.pending, hq.history]; exact h.pending
  active := by rw [hq.story, hq.history]; exact h.active

theorem withDispatching (h : Sound s) (dispatching : Bool)
    : Sound (s.mapRunner ({ · with dispatching })) :=
  ⟨h.lawful, h.handlers, h.next, h.pending, h.active⟩

theorem of_cons {entry : Record} (hhistory : s'.history = entry :: s.history)
    (lawful : History.Lawful (entry :: s.history))
    (handlers : s'.runner.registry.Tracks (History.live (entry :: s.history)))
    (next : s'.runner.registry.next = History.subscriptions (entry :: s.history))
    (pending : s'.runner.pending = History.pending (entry :: s.history))
    (active : s'.runner.story.isSome = History.active (entry :: s.history)) : Sound s' := by
  constructor
  all_goals
    rw [hhistory]
    assumption

theorem enqueue (h : Sound s) {event : Event}
    (ha : s.history.head? = some .stopping ↔ event = .stopped) : Sound (s.enqueue event) := by
  apply of_cons (history_enqueue event) _ h.handlers h.next _ h.active
  . exact .cons trivial (by simpa using ha) h.lawful
  . simp [Session.enqueue, record, mapRunner, History.pending, h.pending]

variable (hs : s.history.head? ≠ some .stopping)

include hs

theorem cons_lawful {entry : Record} (h : Sound s) (hentry : entry ≠ .emitted .stopped)
    (ha : History.Allowed s.history entry) : History.Lawful (entry :: s.history) := by
  apply History.Lawful.cons ha _ h.lawful
  simp [hs, hentry]

theorem adopt (h : Sound s) (story : E) (hnone : s.runner.story = none)
    : Sound (s.adopt story) := by
  apply of_cons (history_adopt story) _ h.handlers h.next h.pending rfl
  apply h.cons_lawful hs (by simp)
  rw [History.Allowed, ← h.active, hnone]
  rfl

theorem release (h : Sound s) : Sound s.release := by
  apply of_cons history_release _ h.handlers h.next h.pending rfl
  exact h.cons_lawful hs (by simp) h.active.symm

theorem tearDown (h : Sound s)
    (hp : History.inProgress s.history = [] → History.waiting s.history = [])
    : Sound s.tearDown := by
  apply of_cons history_tearDown _ _ h.next rfl rfl
  . exact h.cons_lawful hs (by simp) hp
  . apply Registry.tracks_clear

theorem subscribe (h : Sound s) (kind : EventKind) (handler : Handler S E)
    : Sound (s.subscribe kind handler).2 := by
  apply of_cons (history_subscribe kind handler) _ _ _ h.pending h.active
  . exact h.cons_lawful hs (by simp) h.next
  . exact Registry.tracks_subscribe h.handlers kind handler
  . exact congrArg (· + 1) h.next

theorem unsubscribe (h : Sound s) (token : Token) : Sound (s.unsubscribe token).2 := by
  rcases unsubscribe_cases s token with hnone | ⟨registry, hfound, hhistory, hrunner⟩
  . rw [hnone]
    exact h
  . have hnext := Registry.next_unsubscribe s.runner.registry token
    rw [hfound] at hnext
    apply of_cons hhistory
    . exact h.cons_lawful hs (by simp) trivial
    . rw [hrunner]
      exact Registry.tracks_unsubscribe h.handlers h.lawful.live_nodup hfound
    . rw [hrunner]
      exact hnext.trans h.next
    . rw [hrunner]
      exact h.pending
    . rw [hrunner]
      exact h.active

end Sound

end Session
end Parley
