import Parley.Proofs.Course

namespace Parley

namespace Session

open History

variable {S E : Type} {R : E → E → Prop} {s s' : Session S E}

/--
Whether a runner shows what it announced last, and nothing when it has no story.
-/
structure Presents (s : Session S E) : Prop where
  exclusive : s.runner.line = none ∨ s.runner.choices = []
  idle : s.runner.story = none →
    s.runner.line = none ∧ s.runner.choices = [] ∧ s.runner.paused = false
  line : ∀ line, s.runner.line = some line → shown s.history = some (.newLine line)
  choices : s.runner.choices ≠ [] → shown s.history = some (.newChoices s.runner.choices)

namespace Presents

theorem of_cleared (hline : s.runner.line = none) (hchoices : s.runner.choices = [])
    (hpaused : s.runner.story = none → s.runner.paused = false) : Presents s where
  exclusive := Or.inl hline
  idle hidle := ⟨hline, hchoices, hpaused hidle⟩
  line line heq := by
    rw [hline] at heq
    contradiction
  choices hne := absurd hchoices hne

theorem of_same (h : Presents s) (hshown : shown s'.history = shown s.history)
    (hline : s'.runner.line = s.runner.line) (hchoices : s'.runner.choices = s.runner.choices)
    (hidle : s'.runner.story = none →
      s.runner.story = none ∧ s'.runner.paused = s.runner.paused) : Presents s' where
  exclusive := by
    rw [hline, hchoices]
    exact h.exclusive
  idle hnone := by
    obtain ⟨hstory, hpaused⟩ := hidle hnone
    rw [hline, hchoices, hpaused]
    exact h.idle hstory
  line := by
    rw [hline, hshown]
    exact h.line
  choices := by
    rw [hchoices, hshown]
    exact h.choices

theorem of_line (line : Line) (hline : s.runner.line = some line) (hchoices : s.runner.choices = [])
    (hstory : s.runner.story ≠ none) (hshown : shown s.history = some (.newLine line))
    : Presents s where
  exclusive := Or.inr hchoices
  idle hidle := absurd hidle hstory
  line line' heq := by
    rw [hline] at heq
    injection heq with heq
    rw [hshown, heq]
  choices hne := absurd hchoices hne

theorem of_choices (hline : s.runner.line = none) (hstory : s.runner.story ≠ none)
    (hshown : shown s.history = some (.newChoices s.runner.choices)) : Presents s where
  exclusive := Or.inl hline
  idle hidle := absurd hidle hstory
  line line heq := by
    rw [hline] at heq
    contradiction
  choices _ := hshown

theorem onlyStory (h : Presents s) (honly : OnlyStory R s s') : Presents s' := by
  apply h.of_same
  . rw [honly.history]
  . rw [honly.runner]
  . rw [honly.runner]
  . intro hnone
    refine ⟨?_, by rw [honly.runner]⟩
    have hpresent := honly.present
    simpa [hnone] using hpresent.symm

variable [Engine S E]

theorem decided (h : Presents s) {event : Option Event} {decided : Session S E}
    (hdecides : Decides R s event decided) : Presents (decided.enqueue? event) := by
  cases hdecides with
  | onlyStory honly => exact h.onlyStory honly
  | @line _ _ _ line _ _ _ hhistory hrunner =>
    apply of_line line
    all_goals simp [enqueue?, hrunner, shown]
  | choices _ hfound _ hhistory hrunner =>
    apply of_choices
    all_goals simp [enqueue?, hrunner, hfound, shown]
  | ended hactive _ hrunner =>
    have hpresent := (Runner.status_eq_active.mp hactive).1
    apply of_cleared
    . simp [enqueue?, hrunner, Runner.clearContent]
    . simp [enqueue?, hrunner, Runner.clearContent]
    . intro hidle
      simp [enqueue?, hrunner, Runner.clearContent] at hidle
      simp [hidle] at hpresent
  | started story hidle => exact of_cleared rfl rfl fun _ => rfl
  | restarted _ _ hrunner | rewound _ _ hrunner =>
    apply of_cleared
    all_goals simp [enqueue?, hrunner, Runner.clearContent]
  | paused hactive hhistory hrunner =>
    have hpresent := (Runner.status_eq_active.mp hactive).1
    apply h.of_same
    . simp [enqueue?, hhistory, shown]
    . simp [enqueue?, hrunner]
    . simp [enqueue?, hrunner]
    . intro hnone
      simp [enqueue?, hrunner] at hnone
      simp [hnone] at hpresent
  | resumed hpaused hhistory hrunner =>
    have hpresent := (Runner.status_eq_paused.mp hpaused).1
    apply h.of_same
    . simp [enqueue?, hhistory, shown]
    . simp [enqueue?, hrunner]
    . simp [enqueue?, hrunner]
    . intro hnone
      simp [enqueue?, hrunner] at hnone
      simp [hnone] at hpresent
  | tornDown => exact of_cleared rfl rfl fun _ => rfl
  | unsubscribed token =>
    rcases unsubscribe_cases s token with hnone | ⟨_, _, hhistory, hrunner⟩
    . rw [hnone]
      exact h
    . apply h.of_same
      all_goals simp [enqueue?, hhistory, hrunner, shown]

theorem perform (h : Presents s) (request : Operation S E) : Presents (s.perform request).2 := by
  apply perform_keeps Presents request _ h
  intro s s' hchange h
  cases hchange with
  | decided hdecides => exact h.decided hdecides
  | stopped => exact of_cleared rfl rfl fun _ => rfl

theorem move (h : Presents s) (move : Move S E) : Presents (s.move move) := by
  cases move with
  | perform request => exact h.perform request
  | subscribe kind handler =>
    refine h.of_same ?_ rfl rfl fun hidle => ⟨hidle, rfl⟩
    rw [Session.move, history_subscribe]
    rfl
  | announce =>
    refine h.of_same ?_ rfl rfl fun hidle => ⟨hidle, rfl⟩
    rw [Session.move, history_announce]
    rfl
  | release => exact of_cleared rfl rfl fun _ => rfl
  | dispatch underway => exact h.of_same rfl rfl rfl fun hidle => ⟨hidle, rfl⟩
  | take =>
    cases hpending : s.runner.pending with
    | nil => simpa [Session.move, take, hpending] using h
    | cons event rest =>
      rw [Session.move, take_eq hpending]
      refine h.of_same ?_ rfl rfl fun hidle => ⟨hidle, rfl⟩
      rw [history_record rfl]
      rfl
  | enter token event =>
    refine h.of_same ?_ rfl rfl fun hidle => ⟨hidle, rfl⟩
    rw [Session.move, history_enter]
    rfl
  | leave token =>
    refine h.of_same ?_ rfl rfl fun hidle => ⟨hidle, rfl⟩
    rw [Session.move, history_leave]
    rfl

end Presents

theorem presents_now {stage : Stage S E} {c : Course S E} [Engine S E] (h : Staged stage c)
    : Presents c.now := by
  induction h with
  | begin options memory => exact .of_cleared rfl rfl fun _ => rfl
  | push _ _ ih => exact ih.move _
  | delivered _ ih => exact ih

-- Every session that the host or one of its handlers can look at is the end of a part of the
-- course.
theorem run_presents [Engine S E] (options : LoadOptions) (memory : S) (bound : Nat)
    (host : Program S E)
    : let c := (Session.new options memory).course bound host
      c.now = ((Session.new options memory).run bound host).2 ∧
        ∀ past, c.Extends past →
          let r := past.now.runner
          ¬(r.line.isSome = true ∧ r.choices ≠ []) ∧
            (r.story = none → r.line = none ∧ r.choices = [] ∧ r.paused = false) ∧
            (∀ line, r.line = some line → shown past.now.history = some (.newLine line)) ∧
            (r.choices ≠ [] → shown past.now.history = some (.newChoices r.choices)) := by
  obtain ⟨hnow, ⟨stage, hstaged⟩, _⟩ := staged_course options memory bound host
  refine ⟨hnow, ?_⟩
  intro past hpast
  obtain ⟨_, hpast⟩ := hstaged.of_extends hpast
  have hpresents := presents_now hpast
  refine ⟨?_, hpresents.idle, hpresents.line, hpresents.choices⟩
  rintro ⟨hline, hchoices⟩
  rcases hpresents.exclusive with hnone | hnone
  . simp [hnone] at hline
  . exact hchoices hnone

end Session
end Parley
