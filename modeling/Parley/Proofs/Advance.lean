import Parley.Proofs.Abreast
import Parley.Proofs.Course
import Parley.Proofs.Emission
import Parley.Proofs.Script.Steps

/-!
This module contains how going on by one step comes out. The ways in which it can come out are tried
in a fixed order, and a step announces at most one event, which is queued before any handler hears
of anything.
-/

namespace Parley

namespace Session

open History

variable {S E : Type} [Engine S E] {s s' t : Session S E}

/--
How one step of an active story comes out: the first of these ways that is open is taken. A failure
leaves everything but the story alone.
-/
inductive Turns (s : Session S E) (story : E) : Except RunnerError Event → Session S E → Prop where
  | failed {error : EngineError} {story' : E} {world : World S} {s' : Session S E}
      (more : Engine.canContinue story = true)
      (fails : Engine.continueOne story s.world.unwritten = (.error error, story', world))
      (history : s'.history = s.history)
      (runner : s'.runner = { s.runner with story := some story' })
      : Turns s story (.error (.engine error)) s'
  | line {line : Line} {story' : E} {world : World S} {s' : Session S E}
      (more : Engine.canContinue story = true)
      (goes : Engine.continueOne story s.world.unwritten = (.ok line, story', world))
      (history : s'.history = s.history)
      (runner : s'.runner =
        { s.runner with story := some story', line := some line, choices := [] })
      : Turns s story (.ok (.newLine line)) s'
  | choices {s' : Session S E} (halted : Engine.canContinue story = false)
      (offered : Engine.choices story ≠ []) (history : s'.history = s.history)
      (runner : s'.runner = { s.runner with line := none, choices := Engine.choices story })
      : Turns s story (.ok (.newChoices (Engine.choices story))) s'
  | ended {s' : Session S E} (halted : Engine.canContinue story = false)
      (unoffered : Engine.choices story = []) (history : s'.history = s.history)
      (runner : s'.runner = { s.runner with line := none, choices := [] })
      : Turns s story (.ok .ended) s'

theorem turns_step {story : E} (hstory : s.runner.story = some story)
    : s.Turns story s.step.1 s.step.2 := by
  unfold step
  rw [hstory]
  dsimp only
  split
  . next hmore =>
    split
    . next error story' world hfails => exact .failed hmore hfails (history_absorb story' world) rfl
    . next line story' world hgoes => exact .line hmore hgoes (history_absorb story' world) rfl
  . next hhalted =>
    have hhalted : Engine.canContinue story = false := by
      simpa using hhalted
    split
    . next hnone => exact .ended hhalted hnone rfl rfl
    . next choice choices hchoices =>
      rw [← hchoices]
      exact .choices hhalted (by simp [hchoices]) rfl rfl

/--
Whether a session shows choices that its story, which cannot go on without one of them, offers.
-/
structure ShowsChoices (s : Session S E) (choices : List Choice) : Prop where
  offered : choices ≠ []
  line : s.runner.line = none
  shown : s.runner.choices = choices
  story : ∃ story, s.runner.story = some story ∧ Engine.canContinue story = false ∧
    Engine.choices story = choices

theorem Turns.showsChoices {story : E} (hstory : s.runner.story = some story)
    {choices : List Choice} (h : s.Turns story (.ok (.newChoices choices)) s')
    : s'.ShowsChoices choices := by
  cases h with
  | choices hhalted hoffered _ hrunner =>
    constructor
    . exact hoffered
    . rw [hrunner]
    . rw [hrunner]
    . refine ⟨story, ?_, hhalted, rfl⟩
      rw [hrunner]
      exact hstory

theorem Turns.history {story : E} {result : Except RunnerError Event} (h : s.Turns story result s')
    : s'.history = s.history := by
  cases h with
  | failed _ _ hhistory _ | line _ _ hhistory _ | choices _ _ hhistory _ | ended _ _ hhistory _ =>
    exact hhistory

theorem Turns.dispatching {story : E} {result : Except RunnerError Event}
    (h : s.Turns story result s')
    : s'.runner.dispatching = s.runner.dispatching := by
  cases h with
  | failed _ _ _ hrunner | line _ _ _ hrunner | choices _ _ _ hrunner | ended _ _ _ hrunner =>
    rw [hrunner]

/--
Whether choices are announced between two moments only in a session that waits for them.
-/
def Prompts (s s' : Session S E) : Prop :=
  ∃ events, emitted s'.history = emitted s.history ++ events ∧
    ∀ choices, .newChoices choices ∈ events → s'.ShowsChoices choices

section Prompts

theorem prompts_of_same (h : emitted s'.history = emitted s.history) : Prompts s s' := by
  exact ⟨[], by rw [h, List.append_nil], by simp⟩

theorem prompts_of_onlyStory {R : E → E → Prop} (h : OnlyStory R s s') : Prompts s s' := by
  exact prompts_of_same (congrArg emitted h.history)

theorem Prompts.since (h : Prompts s s') {choices : List Choice}
    (hmem : .newChoices choices ∈ s.emittedSince s') : s'.ShowsChoices choices := by
  obtain ⟨events, hemitted, hevents⟩ := h
  rw [emittedSince_eq hemitted] at hmem
  exact hevents choices hmem

theorem Prompts.after {events : List Event} (h : Prompts t s')
    (hemitted : emitted t.history = emitted s.history ++ events)
    (hevents : ∀ event ∈ events, event.kind ≠ .newChoices) : Prompts s s' := by
  obtain ⟨events', hemitted', hshows⟩ := h
  refine ⟨events ++ events', ?_, ?_⟩
  . rw [hemitted', hemitted, List.append_assoc]
  . intro choices hmem
    rcases List.mem_append.mp hmem with hmem | hmem
    . exact absurd rfl (hevents _ hmem)
    . exact hshows choices hmem

theorem Prompts.report (h : Prompts s s') (error : RunnerError) : Prompts s (s'.report error) := by
  have honly : OnlyStory Eq s' (s'.report error) := onlyStory_report (fun _ => rfl) error
  have hrunner : (s'.report error).runner = s'.runner := by
    cases error with
    | _ => rfl
  obtain ⟨events, hemitted, hshows⟩ := h
  refine ⟨events, ?_, ?_⟩
  . rw [honly.history, hemitted]
  . intro choices hmem
    have hshow := hshows choices hmem
    constructor
    . exact hshow.offered
    . rw [hrunner, hshow.line]
    . rw [hrunner, hshow.shown]
    . rw [hrunner]
      exact hshow.story

theorem Prompts.reporting {m : Run S E (Except RunnerError Unit)} (h : Prompts s (outcome m s).2)
    : Prompts s (outcome (do Run.reporting (← m)) s).2 := by
  exact Run.keeps_reporting (fun _ error hprompts => hprompts.report error) h

theorem prompts_tryAdvance : Prompts s (outcome (Run.tryAdvance Run.queue) s).2 := by
  cases hpaused : s.runner.paused with
  | true => simpa [Run.tryAdvance, hpaused] using prompts_of_same rfl
  | false =>
    cases hstory : s.runner.story with
    | none => simpa [Run.tryAdvance, Session.step, hpaused, hstory] using prompts_of_same rfl
    | some story =>
      have hturns := turns_step hstory
      generalize hended : s.step = ended at hturns
      obtain ⟨_ | event, t⟩ := ended
      . simpa [Run.tryAdvance, hpaused, hended] using prompts_of_same
            (congrArg emitted hturns.history)
      . have hqueued : Prompts s (t.enqueue event) := by
          refine ⟨[event], ?_, ?_⟩
          . rw [history_enqueue, emitted, hturns.history]
          . intro choices hmem
            rw [← List.mem_singleton.mp hmem] at hturns
            obtain ⟨hoffered, hline, hshown, hstory⟩ := hturns.showsChoices hstory
            exact ⟨hoffered, hline, hshown, hstory⟩
        simpa [Run.tryAdvance, hpaused, hended, Run.queue] using hqueued

theorem prompts_tryChoose (index : Nat) (autoAdvance : Bool)
    : Prompts s (outcome (Run.tryChoose Run.queue index autoAdvance) s).2 := by
  have honly : s.OnlyStory (fun _ _ => True) (s.commit index).2 :=
    onlyStory_commit (by simp) (by simp)
  cases hpaused : s.runner.paused with
  | true => simpa [Run.tryChoose, hpaused] using prompts_of_same rfl
  | false =>
    generalize hended : s.commit index = ended at honly
    obtain ⟨_ | _, t⟩ := ended
    . simpa [Run.tryChoose, hpaused, hended] using prompts_of_onlyStory honly
    . rw [Run.tryChoose_taken hpaused hended]
      cases autoAdvance with
      | true =>
        have hsame : emitted t.history = emitted s.history ++ [] := by
          rw [honly.history, List.append_nil]
        exact prompts_tryAdvance.after hsame (by simp)
      | false => exact prompts_of_onlyStory honly

theorem prompts_of_announces {request : Operation S E}
    (h : ∀ choices, .newChoices choices ∉ s.announces request)
    : Prompts s (s.perform request).2 := by
  refine ⟨s.announces request, emitted_perform request, ?_⟩
  intro choices hmem
  exact absurd hmem (h choices)

theorem prompts_start (story : E) (autoAdvance : Bool)
    : Prompts s (s.perform (.start story autoAdvance)).2 := by
  cases hpresent : s.runner.story with
  | some other => exact prompts_of_announces (by simp [announces, hpresent])
  | none =>
    cases autoAdvance with
    | false => exact prompts_of_announces (by simp [announces, hpresent])
    | true =>
      have hstart : s.perform (.start story true)
          = outcome (Run.advance Run.queue) ((s.adopt story).enqueue .started) :=
        Run.start_queue hpresent
      have hstarted : emitted ((s.adopt story).enqueue .started).history
          = emitted s.history ++ [.started] := by
        rw [emitted_enqueue, history_adopt]
        rfl
      rw [hstart]
      exact prompts_tryAdvance.reporting.after hstarted (by simp [Event.kind])

-- Of all requests only those that go on announce choices, and they do so last.
theorem prompts_perform (request : Operation S E) : Prompts s (s.perform request).2 := by
  have hsilent : (∀ choices, .newChoices choices ∉ s.announces request) →
      Prompts s (s.perform request).2 := prompts_of_announces
  cases request with
  | advance => exact prompts_tryAdvance.reporting
  | tryAdvance => exact prompts_tryAdvance
  | choose index autoAdvance => exact (prompts_tryChoose index autoAdvance).reporting
  | tryChoose index autoAdvance => exact prompts_tryChoose index autoAdvance
  | start story autoAdvance => exact prompts_start story autoAdvance
  | reset =>
    apply hsilent
    intro choices
    simp only [announces]
    split
    . simp
    . split
      . simp
      . simp
  | pause | resume | stop =>
    apply hsilent
    intro choices
    simp only [announces]
    split
    . simp
    . simp
  | _ => exact hsilent (by simp [announces])

theorem prompts_move (move : Move S E) : Prompts s (s.move move) := by
  cases move with
  | perform request => exact prompts_perform request
  | announce =>
    refine ⟨_, emitted_move .announce, ?_⟩
    simp [heralds]
  | _ =>
    refine ⟨_, emitted_move _, ?_⟩
    simp [heralds]

end Prompts

/--
What an attempt to go on by one step does once it is known how that comes out. A failure is all
there is; an event is queued, and unless a delivery is under way it is delivered at once.
-/
def turned (s : Session S E) (bound : Nat)
    : Except RunnerError Event → Option (Except RunnerError Unit) × Session S E
  | .error error => (some (.error error), s)
  | .ok event =>
    if s.runner.dispatching then
      (some (.ok ()), s.enqueue event)
    else
      outcome (do Run.settle bound; return .ok ()) (s.enqueue event)

theorem request_step (hpaused : s.runner.paused = false) (bound : Nat)
    : s.request bound .tryAdvance = s.step.2.turned bound s.step.1 := by
  have hrequest : s.request bound .tryAdvance
      = outcome (Run.tryAdvance (Run.emitWith (Run.drain bound))) s := rfl
  rw [hrequest]
  generalize hended : s.step = ended
  obtain ⟨result, s'⟩ := ended
  cases result with
  | error error => simp [Run.tryAdvance, turned, hpaused, hended]
  | ok event =>
    cases hdispatching : s'.runner.dispatching with
    | true => simp [Run.tryAdvance, turned, hpaused, hended, hdispatching, Run.emitWith_inside]
    | false => simp [Run.tryAdvance, turned, hpaused, hended, hdispatching, Run.emitWith_outside]

theorem request_tryAdvance {story : E} (hstory : s.runner.story = some story)
    (hpaused : s.runner.paused = false) (bound : Nat)
    : ∃ result s', s.Turns story result s' ∧
        s.request bound .tryAdvance = s'.turned bound result := by
  exact ⟨_, _, turns_step hstory, request_step hpaused bound⟩

section Run

variable (options : LoadOptions) (memory : S) (bound : Nat) (host : Program S E)

theorem run_advances
    : ((Session.new options memory).course bound host).now
        =
      ((Session.new options memory).run bound host).2 ∧
        (∀ past, ((Session.new options memory).course bound host).Extends past →
          (∀ story, past.now.runner.story = some story → past.now.runner.paused = false → ∀ limit,
            ∃ result s', past.now.Turns story result s' ∧
              past.now.request limit .tryAdvance = s'.turned limit result) ∧
          ∀ move, ∀ choices, .newChoices choices ∈ past.now.emittedSince (past.push move).now →
            (past.push move).now.ShowsChoices choices) ∧
        ∀ story : Script.Story S, Engine.choices story ≠ [] →
          ∃ options, story.current? = some (.choices options) ∧
            Engine.choices story = options.mapIdx fun index option => ⟨index, option.1, []⟩ := by
  refine ⟨(staged_course options memory bound host).1, ?_, ?_⟩
  . intro past _
    refine ⟨?_, ?_⟩
    . intro story hstory hpaused limit
      exact request_tryAdvance hstory hpaused limit
    . intro move choices hmem
      exact (prompts_move move).since hmem
  . intro story hchoices
    have hcurrent := Script.Story.current_of_options (Script.Story.options_ne_nil hchoices)
    exact ⟨story.options, hcurrent, Script.Story.choices_eq⟩

end Run

/--
A host that goes on once, from the start of a story to the line before its only choices.
-/
def approaching : Program Unit (Script.Story Unit) :=
  Routine.program do
    let line : Line := ⟨"Where to?", []⟩
    Routine.perform (.start (.new .empty [[.line line, .choices [("left", 0), ("right", 0)]]]) true)

theorem run_advances_approaching
    : ∃ story result s', ((Session.new {} ()).course 3 approaching).now.runner.story = some story ∧
        ((Session.new {} ()).course 3 approaching).now.Turns story result s' ∧
        ((Session.new {} ()).course 3 approaching).now.request 3 .tryAdvance = s'.turned 3 result ∧
        result = .ok (.newChoices [⟨0, "left", []⟩, ⟨1, "right", []⟩]) := by
  obtain ⟨hadvances, _⟩ := (run_advances {} () 3 approaching).2.1 _ ⟨rfl, List.suffix_rfl⟩
  obtain ⟨result, s', hturns, hrequest⟩ := hadvances _ rfl rfl 3
  refine ⟨_, result, s', rfl, hturns, hrequest, ?_⟩
  cases hturns with
  | failed hmore => contradiction
  | line hmore => contradiction
  | choices => rfl
  | ended _ hnone => contradiction

end Session

end Parley
