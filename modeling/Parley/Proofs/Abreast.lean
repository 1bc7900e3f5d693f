import Parley.Proofs.Change

/-!
This module contains sessions that go on side by side. Where going on and choosing do not tell two
stories apart, neither do the sessions that tell them: a request for progress gets the same reply on
both sides and emits the same event.
-/

namespace Parley

/--
Whether a relation between stories, each with the memory that its functions work on, is kept by
going on and by choosing, which moreover give the same results on both sides.
-/
structure Engine.Bisimilar {S E : Type} [Engine S E] (R : E → S → E → S → Prop) : Prop where
  canContinue : ∀ {story memory other memory'}, R story memory other memory' →
    Engine.canContinue other = Engine.canContinue story
  choices : ∀ {story memory other memory'}, R story memory other memory' →
    Engine.choices other = Engine.choices story
  continueOne : ∀ {story memory other memory'}, R story memory other memory' →
    let (result, story, world) := Engine.continueOne story ⟨memory, []⟩
    let (result', other, world') := Engine.continueOne other ⟨memory', []⟩
    result' = result ∧ R story world.memory other world'.memory
  choose : ∀ {story memory other memory'}, R story memory other memory' → ∀ index,
    let (result, story) := Engine.choose story index
    let (result', other) := Engine.choose other index
    result' = result ∧ R story memory other memory'

def Operation.isProgress {S E : Type} : Operation S E → Bool
  | .advance | .tryAdvance | .choose .. | .tryChoose .. => true
  | _ => false

def EventKind.isShown : EventKind → Bool
  | .newLine | .newChoices | .ended => true
  | _ => false

namespace Session

variable {S E : Type} {s s' s'' t t' t'' : Session S E} {R : E → S → E → S → Prop}

def emittedSince (s s' : Session S E) : List Event :=
  (History.emitted s'.history).drop (History.emitted s.history).length

theorem emittedSince_eq {events : List Event}
    (h : History.emitted s'.history = History.emitted s.history ++ events)
    : s.emittedSince s' = events := by
  rw [emittedSince, h, List.drop_left]

theorem emitted_enqueue? (s : Session S E) (event : Option Event)
    : History.emitted (s.enqueue? event).history = History.emitted s.history ++ event.toList := by
  cases event with
  | none => simp [enqueue?]
  | some event => simp [enqueue?, History.emitted]

/--
Whether nothing but notes were written, and of the runner nothing but its story and what it shows
has changed.
-/
structure Onward (s s' : Session S E) : Prop where
  history : s'.history = s.history
  runner : s'.runner = { s.runner with
    story := s'.runner.story, line := s'.runner.line, choices := s'.runner.choices }

theorem onward_of_same (hhistory : s'.history = s.history) (hrunner : s'.runner = s.runner)
    : Onward s s' where
  history := hhistory
  runner := by
    rw [hrunner]

theorem Onward.trans (h : Onward s s') (h' : Onward s' s'') : Onward s s'' where
  history := h'.history.trans h.history
  runner := by
    rw [h'.runner, h.runner]

/--
Whether two sessions, neither of which is paused, have stories that are related.
-/
structure Abreast (R : E → S → E → S → Prop) (s t : Session S E) : Prop where
  left : s.runner.paused = false
  right : t.runner.paused = false
  stories : ∃ story other, s.runner.story = some story ∧ t.runner.story = some other ∧
    R story s.world.memory other t.world.memory

/--
Whether two sessions that went on are abreast, and show the same if they did so before.
-/
structure Together (R : E → S → E → S → Prop) (s t s' t' : Session S E) : Prop where
  left : Onward s s'
  right : Onward t t'
  abreast : Abreast R s' t'
  shown : s.runner.line = t.runner.line → s.runner.choices = t.runner.choices →
    s'.runner.line = t'.runner.line ∧ s'.runner.choices = t'.runner.choices

theorem Together.trans (h : Together R s t s' t') (h' : Together R s' t' s'' t'')
    : Together R s t s'' t'' where
  left := h.left.trans h'.left
  right := h.right.trans h'.right
  abreast := h'.abreast
  shown := by
    intro hline hchoices
    obtain ⟨hline, hchoices⟩ := h.shown hline hchoices
    exact h'.shown hline hchoices

theorem Abreast.together (h : Abreast R s t) : Together R s t s t where
  left := onward_of_same rfl rfl
  right := onward_of_same rfl rfl
  abreast := h
  shown := fun hline hchoices => ⟨hline, hchoices⟩

theorem Abreast.report (h : Abreast R s t) (error : RunnerError)
    : Together R s t (s.report error) (t.report error) := by
  obtain ⟨hs, hsrunner, hsmemory⟩ := report_frame (s := s) error
  obtain ⟨ht, htrunner, htmemory⟩ := report_frame (s := t) error
  refine ⟨onward_of_same hs hsrunner, onward_of_same ht htrunner, ⟨?_, ?_, ?_⟩, ?_⟩
  . rw [hsrunner]
    exact h.left
  . rw [htrunner]
    exact h.right
  . rw [hsrunner, htrunner, hsmemory, htmemory]
    exact h.stories
  . rw [hsrunner, htrunner]
    exact fun hline hchoices => ⟨hline, hchoices⟩

/--
Whether a computation that queues its events has the same result in two sessions, and emits the same
event, while the sessions go on side by side.
-/
def Agrees {α : Type} (R : E → S → E → S → Prop) (m : Run S E α) (s t : Session S E) : Prop :=
  ∃ result event s' t', outcome m s = (some result, s'.enqueue? event) ∧
    outcome m t = (some result, t'.enqueue? event) ∧ Together R s t s' t' ∧
    ∀ e ∈ event, e.kind.isShown = true

/--
Whether a computation that may fail agrees with itself, and emits nothing if it fails.
-/
def Tries (R : E → S → E → S → Prop) (m : Run S E (Except RunnerError Unit))
    (s t : Session S E) : Prop :=
  ∃ result event s' t', outcome m s = (some result, s'.enqueue? event) ∧
    outcome m t = (some result, t'.enqueue? event) ∧ Together R s t s' t' ∧
    (event = none ∨ result = .ok ()) ∧ ∀ e ∈ event, e.kind.isShown = true

section Tries

variable {m m' : Run S E (Except RunnerError Unit)}

theorem Tries.of_together (htogether : Together R s t s' t') (h : Tries R m' s' t')
    (hs : outcome m s = outcome m' s') (ht : outcome m t = outcome m' t') : Tries R m s t := by
  obtain ⟨result, event, s'', t'', hs', ht', htogether', hrest⟩ := h
  exact ⟨result, event, s'', t'', hs.trans hs', ht.trans ht', htogether.trans htogether', hrest⟩

theorem Tries.agrees (h : Tries R m s t) : Agrees R m s t := by
  obtain ⟨result, event, s', t', hs, ht, htogether, _, hshown⟩ := h
  exact ⟨result, event, s', t', hs, ht, htogether, hshown⟩

theorem Tries.reporting (h : Tries R m s t) : Agrees R (do Run.reporting (← m)) s t := by
  obtain ⟨result, event, s', t', hs, ht, htogether, hquiet, hshown⟩ := h
  unfold Agrees
  rw [outcome_bind, outcome_bind, hs, ht]
  cases result with
  | ok _ => exact ⟨(), event, s', t', rfl, rfl, htogether, hshown⟩
  | error error =>
    have hnone : event = none := hquiet.resolve_right (by simp)
    rw [hnone]
    exact ⟨(), none, s'.report error, t'.report error, rfl, rfl,
      htogether.trans (htogether.abreast.report error), by simp⟩

end Tries

section Progress

variable [Engine S E] (hR : Engine.Bisimilar R)

include hR

theorem Abreast.step (h : Abreast R s t)
    : t.step.1 = s.step.1 ∧ Together R s t s.step.2 t.step.2 ∧
        ∀ event, s.step.1 = .ok event → event.kind.isShown = true := by
  obtain ⟨story, other, hs, ht, hrelated⟩ := h.stories
  have hcontinue := hR.continueOne hrelated
  have hs' : Engine.continueOne story s.world.unwritten
      = Engine.continueOne story ⟨s.world.memory, []⟩ := rfl
  have ht' : Engine.continueOne other t.world.unwritten
      = Engine.continueOne other ⟨t.world.memory, []⟩ := rfl
  unfold Session.step
  simp only [hs, ht, hR.canContinue hrelated, hR.choices hrelated, hs', ht']
  generalize Engine.continueOne story ⟨s.world.memory, []⟩ = played at hcontinue ⊢
  generalize Engine.continueOne other ⟨t.world.memory, []⟩ = played' at hcontinue ⊢
  obtain ⟨result, story', world⟩ := played
  obtain ⟨result', other', world'⟩ := played'
  obtain ⟨hresult, hplayed⟩ := hcontinue
  rw [hresult]
  have hstories : ∃ story other, some story' = some story ∧ some other' = some other ∧
      R story world.memory other world'.memory := ⟨story', other', rfl, rfl, hplayed⟩
  split
  . cases result with
    | error error =>
      refine ⟨rfl, ⟨?_, ?_, ⟨h.left, h.right, hstories⟩, ?_⟩, by simp⟩
      . exact ⟨history_absorb story' world, rfl⟩
      . exact ⟨history_absorb other' world', rfl⟩
      . exact fun hline hchoices => ⟨hline, hchoices⟩
    | ok line =>
      refine ⟨rfl, ⟨?_, ?_, ⟨h.left, h.right, hstories⟩, fun _ _ => ⟨rfl, rfl⟩⟩, ?_⟩
      . exact ⟨history_absorb story' world, rfl⟩
      . exact ⟨history_absorb other' world', rfl⟩
      . intro event heq
        cases heq
        rfl
  . cases Engine.choices story with
    | nil =>
      refine ⟨rfl,
        ⟨⟨rfl, rfl⟩, ⟨rfl, rfl⟩, ⟨h.left, h.right, h.stories⟩, fun _ _ => ⟨rfl, rfl⟩⟩, ?_⟩
      intro event heq
      cases heq
      rfl
    | cons choice choices =>
      refine ⟨rfl,
        ⟨⟨rfl, rfl⟩, ⟨rfl, rfl⟩, ⟨h.left, h.right, h.stories⟩, fun _ _ => ⟨rfl, rfl⟩⟩, ?_⟩
      intro event heq
      cases heq
      rfl

theorem Abreast.commit (h : Abreast R s t) (index : Nat)
    : (t.commit index).1 = (s.commit index).1 ∧
        Together R s t (s.commit index).2 (t.commit index).2 := by
  obtain ⟨story, other, hs, ht, hrelated⟩ := h.stories
  have hchoose := hR.choose hrelated index
  unfold Session.commit
  simp only [hs, ht, hR.choices hrelated]
  generalize Engine.choose story index = chosen at hchoose ⊢
  generalize Engine.choose other index = chosen' at hchoose ⊢
  obtain ⟨result, story'⟩ := chosen
  obtain ⟨result', other'⟩ := chosen'
  obtain ⟨hresult, hchosen⟩ := hchoose
  rw [hresult]
  split
  . exact ⟨rfl, h.together⟩
  . split
    . exact ⟨rfl, h.together⟩
    . refine ⟨rfl, ⟨rfl, rfl⟩, ⟨rfl, rfl⟩, ⟨h.left, h.right, story', other', rfl, rfl, hchosen⟩, ?_⟩
      exact fun hline hchoices => ⟨hline, hchoices⟩

theorem Abreast.tryAdvance (h : Abreast R s t) : Tries R (Run.tryAdvance Run.queue) s t := by
  obtain ⟨hresult, htogether, hshown⟩ := h.step hR
  have hspaused := h.left
  have htpaused := h.right
  generalize hstepped : s.step = stepped at *
  generalize hstepped' : t.step = stepped' at *
  obtain ⟨result, s'⟩ := stepped
  obtain ⟨result', t'⟩ := stepped'
  dsimp only at *
  rw [hresult] at hstepped'
  cases result with
  | error error =>
    refine ⟨.error error, none, s', t', ?_, ?_, htogether, Or.inl rfl, by simp⟩
    . simp [Run.tryAdvance, enqueue?, hspaused, hstepped]
    . simp [Run.tryAdvance, enqueue?, htpaused, hstepped']
  | ok event =>
    refine ⟨.ok (), some event, s', t', ?_, ?_, htogether, Or.inr rfl, by simpa using hshown⟩
    . simp [Run.tryAdvance, Run.queue, enqueue?, hspaused, hstepped]
    . simp [Run.tryAdvance, Run.queue, enqueue?, htpaused, hstepped']

theorem Abreast.tryChoose (h : Abreast R s t) (index : Nat) (autoAdvance : Bool)
    : Tries R (Run.tryChoose Run.queue index autoAdvance) s t := by
  obtain ⟨hresult, htogether⟩ := h.commit hR index
  have hspaused := h.left
  have htpaused := h.right
  generalize hchosen : s.commit index = chosen at *
  generalize hchosen' : t.commit index = chosen' at *
  obtain ⟨result, s'⟩ := chosen
  obtain ⟨result', t'⟩ := chosen'
  dsimp only at *
  rw [hresult] at hchosen'
  cases result with
  | error error =>
    refine ⟨.error error, none, s', t', ?_, ?_, htogether, Or.inl rfl, by simp⟩
    . simp [Run.tryChoose, enqueue?, hspaused, hchosen]
    . simp [Run.tryChoose, enqueue?, htpaused, hchosen']
  | ok _ =>
    refine Tries.of_together htogether ?_ (Run.tryChoose_taken hspaused hchosen autoAdvance _)
      (Run.tryChoose_taken htpaused hchosen' autoAdvance _)
    cases autoAdvance with
    | true => exact htogether.abreast.tryAdvance hR
    | false =>
      exact ⟨.ok (), none, s', t', rfl, rfl, htogether.abreast.together, Or.inl rfl, by simp⟩

theorem Abreast.perform (h : Abreast R s t) {request : Operation S E}
    (hprogress : request.isProgress = true) : Agrees R (Run.operation Run.queue request) s t := by
  cases request with
  | advance => exact (h.tryAdvance hR).reporting
  | tryAdvance => exact (h.tryAdvance hR).agrees
  | choose index autoAdvance => exact (h.tryChoose hR index autoAdvance).reporting
  | tryChoose index autoAdvance => exact (h.tryChoose hR index autoAdvance).agrees
  | _ => simp [Operation.isProgress] at hprogress

end Progress

end Session

end Parley
