import Parley.Dispatch
import Parley.History

namespace Parley
namespace Session

variable {S E : Type} {s : Session S E}

section History

theorem history_record {entry : Record} (hentry : entry.isNote = false)
    : (s.record entry).history = entry :: s.history := by
  simp [record, World.record, history, hentry]

theorem history_record_note {entry : Record} (hentry : entry.isNote = true)
    : (s.record entry).history = s.history := by
  simp [record, World.record, history, hentry]

@[simp]
theorem history_log (level : Level) (message : String)
    : (s.log level message).history = s.history := by
  exact history_record_note rfl

theorem report_frame (error : RunnerError)
    : (s.report error).history = s.history ∧ (s.report error).runner = s.runner ∧
        (s.report error).world.memory = s.world.memory := by
  cases error with
  | _ => exact ⟨history_record_note rfl, rfl, rfl⟩

@[simp]
theorem history_mapRunner (f : Runner S E → Runner S E) : (s.mapRunner f).history = s.history := rfl

@[simp]
theorem history_absorb (story : E) (world : World S)
    : (s.absorb story world).history = s.history := by
  simp [absorb, history, List.filter_append, List.filter_filter]

@[simp]
theorem history_adopt (story : E) : (s.adopt story).history = .adopted :: s.history := by
  unfold adopt
  rw [history_log, history_record rfl, history_mapRunner]

@[simp]
theorem history_release
    : s.release.history = .stopped s.runner.story.isSome :: s.history := by
  unfold release
  rw [history_log, history_record rfl, history_mapRunner]

@[simp]
theorem history_tearDown : s.tearDown.history = .tornDown :: s.history := by
  unfold tearDown
  rw [history_record rfl, history_mapRunner]

@[simp]
theorem history_enqueue (event : Event)
    : (s.enqueue event).history = .emitted event :: s.history := by
  unfold enqueue
  rw [history_record rfl, history_mapRunner]

@[simp]
theorem enqueue_runner (event : Event)
    : (s.enqueue event).runner = { s.runner with pending := s.runner.pending ++ [event] } := rfl

@[simp]
theorem history_subscribe (kind : EventKind) (handler : Handler S E)
    : (s.subscribe kind handler).2.history
        =
      .subscribed kind (s.subscribe kind handler).1 :: s.history := by
  unfold subscribe
  dsimp only
  rw [history_record rfl, history_mapRunner]

theorem unsubscribe_cases (s : Session S E) (token : Token)
    : (s.unsubscribe token).2 = s ∨
        ∃ registry, s.runner.registry.unsubscribe token = (true, registry) ∧
          (s.unsubscribe token).2.history = .unsubscribed token :: s.history ∧
          (s.unsubscribe token).2.runner = { s.runner with registry } := by
  unfold unsubscribe
  split
  . next registry hfound =>
    refine Or.inr ⟨registry, hfound, ?_, rfl⟩
    rw [history_record rfl, history_mapRunner]
  . exact Or.inl rfl

end History

/--
Whether nothing changes that a history speaks of.
-/
structure Quiet (s s' : Session S E) : Prop where
  history : s'.history = s.history
  registry : s'.runner.registry = s.runner.registry
  pending : s'.runner.pending = s.runner.pending
  dispatching : s'.runner.dispatching = s.runner.dispatching
  story : s'.runner.story.isSome = s.runner.story.isSome

end Session
end Parley
