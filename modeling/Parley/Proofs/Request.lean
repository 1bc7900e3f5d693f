import Parley.Proofs.OnlyStory
import Parley.Proofs.Outcome

/-!
This module contains what one request can do, once for all that is said of runs later on. `Decides`
lists the ways in which a request is decided before its event is emitted, and `Decided` says that
emitting that event is all that is then left of it.
-/

namespace Parley

namespace Session

variable {S E : Type} {R : E → E → Prop} {s s' : Session S E}

/--
The ways in which a request is decided: which event it is going to emit, if any, and the session in
which it does so.
-/
inductive Decides [Engine S E] (R : E → E → Prop) (s : Session S E)
    : Option Event → Session S E → Prop where
  | onlyStory {s' : Session S E} (changed : s.OnlyStory R s') : Decides R s none s'
  | line {s' : Session S E} {story story' : E} {line : Line} (active : s.runner.status = .active)
      (found : s.runner.story = some story) (changed : R story story')
      (history : s'.history = s.history)
      (runner : s'.runner =
        { s.runner with story := some story', line := some line, choices := [] })
      : Decides R s (some (.newLine line)) s'
  | choices {s' : Session S E} {story : E} (active : s.runner.status = .active)
      (found : s.runner.story = some story) (offered : Engine.choices story ≠ [])
      (history : s'.history = s.history)
      (runner : s'.runner = { s.runner with line := none, choices := Engine.choices story })
      : Decides R s (some (.newChoices (Engine.choices story))) s'
  | ended {s' : Session S E} (active : s.runner.status = .active) (history : s'.history = s.history)
      (runner : s'.runner = s.runner.clearContent) : Decides R s (some .ended) s'
  | started (story : E) (idle : s.runner.story = none) : Decides R s (some .started) (s.adopt story)
  | restarted {s' : Session S E} {story : E} (present : s.runner.story.isSome = true)
      (history : s'.history = s.history)
      (runner : s'.runner = { s.runner.clearContent with story := some story, paused := false })
      : Decides R s (some .restarted) s'
  | rewound {s' : Session S E} {story : E} (present : s.runner.story.isSome = true)
      (history : s'.history = s.history)
      (runner : s'.runner = { s.runner.clearContent with story := some story })
      : Decides R s none s'
  | paused {s' : Session S E} (active : s.runner.status = .active)
      (history : s'.history = s.history) (runner : s'.runner = { s.runner with paused := true })
      : Decides R s (some .paused) s'
  | resumed {s' : Session S E} (paused : s.runner.status = .paused)
      (history : s'.history = s.history) (runner : s'.runner = { s.runner with paused := false })
      : Decides R s (some .resumed) s'
  | tornDown : Decides R s none s.tearDown
  | unsubscribed (token : Token) : Decides R s none (s.unsubscribe token).2

section Decides

variable [Engine S E] {event : Option Event}

theorem Decides.ne_stopped {event : Event} (h : Decides R s (some event) s')
    : event ≠ .stopped := by
  cases h <;> simp

theorem Decides.frame (h : Decides R s event s')
    : s'.runner.dispatching = s.runner.dispatching ∧
        (s'.runner.pending = s.runner.pending ∨ s'.runner.pending = []) := by
  cases h with
  | onlyStory honly =>
    rw [honly.runner]
    exact ⟨rfl, Or.inl rfl⟩
  | started => exact ⟨rfl, Or.inl rfl⟩
  | tornDown => exact ⟨rfl, Or.inr rfl⟩
  | unsubscribed token =>
    rcases unsubscribe_cases s token with hnone | ⟨_, _, _, hrunner⟩
    . rw [hnone]
      exact ⟨rfl, Or.inl rfl⟩
    . rw [hrunner]
      exact ⟨rfl, Or.inl rfl⟩
  | line _ _ _ _ hrunner | choices _ _ _ _ hrunner | ended _ _ hrunner | restarted _ _ hrunner
  | rewound _ _ hrunner | paused _ _ hrunner | resumed _ _ hrunner =>
    rw [hrunner]
    exact ⟨rfl, Or.inl rfl⟩

theorem Decides.history_cases (h : Decides R s event s')
    : s'.history = s.history ∨ s'.history = .adopted :: s.history ∨
        s'.history = .tornDown :: s.history ∨
        ∃ token, s'.history = .unsubscribed token :: s.history := by
  cases h with
  | onlyStory honly => exact Or.inl honly.history
  | started story => exact Or.inr (Or.inl (history_adopt story))
  | tornDown => exact Or.inr (Or.inr (Or.inl history_tearDown))
  | unsubscribed token =>
    rcases unsubscribe_cases s token with hnone | ⟨_, _, hhistory, _⟩
    . rw [hnone]
      exact Or.inl rfl
    . exact Or.inr (Or.inr (Or.inr ⟨token, hhistory⟩))
  | line _ _ _ hhistory _ | choices _ _ _ hhistory _ | ended _ hhistory _ | restarted _ hhistory _
  | rewound _ hhistory _ | paused _ hhistory _ | resumed _ hhistory _ => exact Or.inl hhistory

theorem Decides.reads {α : Type} {read : History → α} (h : Decides R s event s')
    (hadopted : ∀ past, read (.adopted :: past) = read past)
    (htornDown : ∀ past, read (.tornDown :: past) = read past)
    (hunsubscribed : ∀ token past, read (.unsubscribed token :: past) = read past)
    : read s'.history = read s.history := by
  rcases h.history_cases with heq | heq | heq | ⟨token, heq⟩
  . rw [heq]
  . rw [heq, hadopted]
  . rw [heq, htornDown]
  . rw [heq, hunsubscribed]

end Decides

section Step

variable [Engine S E] (hR : Engine.Respects R)

include hR

theorem onlyStory_of_step {error : RunnerError} (hstep : s.step = (.error error, s'))
    : OnlyStory R s s' := by
  unfold step at hstep
  split at hstep
  . injection hstep with _ heq
    rw [← heq]
    exact OnlyStory.refl hR.refl
  . next story hs =>
    have hcontinue := hR.continueOne story s.world.unwritten
    split at hstep
    . split at hstep
      . next heq =>
        rw [heq] at hcontinue
        injection hstep with _ heq
        rw [← heq]
        exact onlyStory_absorb hs _ hcontinue
      . simp at hstep
    . split at hstep
      . simp at hstep
      . simp at hstep

theorem decides_of_step {event : Event} (hpaused : s.runner.paused = false)
    (hstep : s.step = (.ok event, s')) : Decides R s (some event) s' := by
  unfold step at hstep
  split at hstep
  . simp at hstep
  . next story hs =>
    have hactive : s.runner.status = .active := by
      simp [Runner.status, hs, hpaused]
    have hcontinue := hR.continueOne story s.world.unwritten
    split at hstep
    . split at hstep
      . simp at hstep
      . next line story' world heq =>
        rw [heq] at hcontinue
        injection hstep with hevent heq
        injection hevent with hevent
        rw [← hevent, ← heq]
        exact .line hactive hs hcontinue (history_absorb story' world) rfl
    . split at hstep
      . injection hstep with hevent heq
        injection hevent with hevent
        rw [← hevent, ← heq]
        exact .ended hactive rfl rfl
      . next choice choices hchoices =>
        injection hstep with hevent heq
        injection hevent with hevent
        rw [← hevent, ← heq, ← hchoices]
        exact .choices hactive hs (by simp [hchoices]) rfl rfl

end Step

end Session

namespace Run

open Session

variable {S E α : Type} {R : E → E → Prop} {s : Session S E}

def announce (emit : Event → Run S E Unit) (event : Option Event) (reply : α) : Run S E α :=
  match event with
  | none => return reply
  | some event => do
    emit event
    return reply

/--
Whether a computation that may emit an event does so at its very end, after a beginning that changes
only the story and a decision.
-/
def Decided [Engine S E] (R : E → E → Prop) (s : Session S E)
    (m : (Event → Run S E Unit) → Run S E α) : Prop :=
  ∃ begun event decided reply, s.OnlyStory R begun ∧ begun.Decides R event decided ∧
    ∀ emit, outcome (m emit) s = outcome (announce emit event reply) decided

variable [Engine S E] (hR : Engine.Respects R)

include hR

theorem decided_of_onlyStory {m : (Event → Run S E Unit) → Run S E α} {s' : Session S E}
    (reply : α) (honly : s.OnlyStory R s') (hm : ∀ emit, outcome (m emit) s = (some reply, s'))
    : Decided R s m := by
  exact ⟨s', none, s', reply, honly, .onlyStory (OnlyStory.refl hR.refl), hm⟩

theorem decided_of_decides {m : (Event → Run S E Unit) → Run S E α} {event : Option Event}
    {s' : Session S E} (reply : α) (hdecides : s.Decides R event s')
    (hm : ∀ emit, outcome (m emit) s = outcome (announce emit event reply) s')
    : Decided R s m := by
  exact ⟨s, event, s', reply, OnlyStory.refl hR.refl, hdecides, hm⟩

section Tried

variable {m : (Event → Run S E Unit) → Run S E (Except RunnerError Unit)}

/--
Whether a computation fails and changes only the story, or is decided and succeeds.
-/
def Tried (R : E → E → Prop) (s : Session S E)
    (m : (Event → Run S E Unit) → Run S E (Except RunnerError Unit)) : Prop :=
  (∃ error s', s.OnlyStory R s' ∧ ∀ emit, outcome (m emit) s = (some (.error error), s')) ∨
    ∃ begun event decided, s.OnlyStory R begun ∧ begun.Decides R event decided ∧
      ∀ emit, outcome (m emit) s = outcome (announce emit event (.ok ())) decided

theorem Tried.decided (h : Tried R s m) : Decided R s m := by
  rcases h with ⟨error, s', honly, hm⟩ | ⟨begun, event, decided, honly, hdecides, hm⟩
  . exact decided_of_onlyStory hR (.error error) honly hm
  . exact ⟨begun, event, decided, .ok (), honly, hdecides, hm⟩

theorem Tried.reporting (h : Tried R s m)
    : Decided R s (fun emit => do reporting (← m emit)) := by
  rcases h with ⟨error, s', honly, hm⟩ | ⟨begun, event, decided, honly, hdecides, hm⟩
  . apply decided_of_onlyStory hR () (honly.trans hR.trans (onlyStory_report hR.refl error))
    intro emit
    simp [hm, Run.reporting, report]
  . refine ⟨begun, event, decided, (), honly, hdecides, ?_⟩
    intro emit
    rw [outcome_bind, hm]
    cases event with
    | none => simp [announce, Run.reporting]
    | some event =>
      simp only [announce, outcome_bind]
      generalize outcome (emit event) decided = ended
      obtain ⟨_ | _, s'⟩ := ended
      . rfl
      . rfl

theorem tried_tryAdvance : Tried R s (tryAdvance ·) := by
  cases hpaused : s.runner.paused with
  | true =>
    refine Or.inr ⟨s, none, s, OnlyStory.refl hR.refl, .onlyStory (OnlyStory.refl hR.refl), ?_⟩
    intro emit
    simp [tryAdvance, announce, hpaused]
  | false =>
    cases hstep : s.step with
    | mk result s' =>
      cases result with
      | error error =>
        refine Or.inl ⟨error, s', onlyStory_of_step hR hstep, ?_⟩
        intro emit
        simp [tryAdvance, hpaused, hstep]
      | ok event =>
        have hdecides := decides_of_step hR hpaused hstep
        refine Or.inr ⟨s, some event, s', OnlyStory.refl hR.refl, hdecides, ?_⟩
        intro emit
        simp [tryAdvance, announce, hpaused, hstep]

def goOn (autoAdvance : Bool) (emit : Event → Run S E Unit) : Run S E (Except RunnerError Unit) :=
  if autoAdvance then tryAdvance emit else return .ok ()

theorem tried_goOn (autoAdvance : Bool) : Tried R s (goOn autoAdvance) := by
  cases autoAdvance with
  | true => exact tried_tryAdvance hR
  | false =>
    exact Or.inr
        ⟨s, none, s, OnlyStory.refl hR.refl, .onlyStory (OnlyStory.refl hR.refl), fun _ => rfl⟩

omit hR in
theorem tryChoose_taken {index : Nat} {s' : Session S E} (hpaused : s.runner.paused = false)
    (hchosen : s.commit index = (.ok (), s')) (autoAdvance : Bool) (emit : Event → Run S E Unit)
    : outcome (tryChoose emit index autoAdvance) s = outcome (goOn autoAdvance emit) s' := by
  simp [tryChoose, goOn, hpaused, hchosen]

theorem tried_tryChoose {index : Nat}
    (hcommit : s.runner.paused = false → s.OnlyStory R (s.commit index).2) (autoAdvance : Bool)
    : Tried R s (tryChoose · index autoAdvance) := by
  cases hpaused : s.runner.paused with
  | true =>
    refine Or.inr ⟨s, none, s, OnlyStory.refl hR.refl, .onlyStory (OnlyStory.refl hR.refl), ?_⟩
    intro emit
    simp [tryChoose, announce, hpaused]
  | false =>
    specialize hcommit hpaused
    cases hchosen : s.commit index with
    | mk result s' =>
      rw [hchosen] at hcommit
      cases result with
      | error error =>
        refine Or.inl ⟨error, s', hcommit, ?_⟩
        intro emit
        simp [tryChoose, hpaused, hchosen]
      | ok _ =>
        have hm := tryChoose_taken hpaused hchosen autoAdvance
        rcases tried_goOn hR (s := s') autoAdvance with
          ⟨error, t, honly, hfail⟩ | ⟨begun, event, decided, honly, hdecides, hgo⟩
        . refine Or.inl ⟨error, t, hcommit.trans hR.trans honly, ?_⟩
          intro emit
          exact (hm emit).trans (hfail emit)
        . refine Or.inr ⟨begun, event, decided, hcommit.trans hR.trans honly, hdecides, ?_⟩
          intro emit
          exact (hm emit).trans (hgo emit)

end Tried

theorem decided_start (story : E) : Decided R s (start · story false) := by
  cases hstory : s.runner.story with
  | none =>
    apply decided_of_decides hR () (.started story hstory)
    intro emit
    simp [start, announce, hstory]
  | some other =>
    apply decided_of_onlyStory hR () (onlyStory_report hR.refl .alreadyActive)
    intro emit
    simp [start, report, hstory]

theorem decided_reset : Decided R s reset := by
  cases hstory : s.runner.story with
  | none =>
    apply decided_of_onlyStory hR () (OnlyStory.refl hR.refl)
    intro emit
    simp [reset, hstory]
  | some story =>
    cases hreset : Engine.reset story s.world.unwritten with
    | mk result rest =>
      obtain ⟨story', world⟩ := rest
      cases result with
      | error error =>
        have hchanged := hR.reset story s.world.unwritten error (by rw [hreset])
        rw [hreset] at hchanged
        have honly := onlyStory_absorb hstory world hchanged
        apply decided_of_onlyStory hR ()
            (honly.trans hR.trans (onlyStory_report hR.refl (.engine error)))
        intro emit
        simp [reset, report, hstory, hreset]
      | ok _ =>
        have hdecides : s.Decides R (some .restarted)
            (((s.absorb story' world).mapRunner ({ ·.clearContent with paused := false })).log
              .debug "dialogue restarted") := by
          exact .restarted (by simp [hstory]) (by simp) rfl
        apply decided_of_decides hR () hdecides
        intro emit
        simp [reset, announce, hstory, hreset]

theorem decided_rewind : Decided R s (fun _ => rewind) := by
  cases hstory : s.runner.story with
  | none =>
    apply decided_of_onlyStory hR () (OnlyStory.refl hR.refl)
    intro emit
    simp [rewind, hstory]
  | some story =>
    have hpresent : s.runner.story.isSome = true := by
      simp [hstory]
    cases hrewind : Engine.rewind story with
    | mk result story' =>
      let cleared := s.mapRunner fun r => { r.clearContent with story := some story' }
      cases result with
      | error error =>
        have hdecides : s.Decides R none (cleared.report (.engine error)) := by
          exact .rewound hpresent (history_log _ _) rfl
        apply decided_of_decides hR () hdecides
        intro emit
        simp [rewind, reporting, report, announce, mapError_error, hstory, hrewind, cleared]
      | ok _ =>
        have hdecides : s.Decides R none cleared := .rewound hpresent rfl rfl
        apply decided_of_decides hR () hdecides
        intro emit
        simp [rewind, reporting, announce, mapError_ok, hstory, hrewind, cleared]

theorem decided_pause : Decided R s pause := by
  by_cases hactive : s.runner.status = .active
  . have hdecides : s.Decides R (some .paused) (s.mapRunner ({ · with paused := true })) := by
      exact .paused hactive rfl rfl
    apply decided_of_decides hR () hdecides
    intro emit
    simp [pause, announce, hactive]
  . apply decided_of_onlyStory hR () (OnlyStory.refl hR.refl)
    intro emit
    simp [pause, hactive]

theorem decided_resume : Decided R s resume := by
  by_cases hpaused : s.runner.status = .paused
  . have hdecides : s.Decides R (some .resumed) (s.mapRunner ({ · with paused := false })) := by
      exact .resumed hpaused rfl rfl
    apply decided_of_decides hR () hdecides
    intro emit
    simp [resume, announce, hpaused]
  . apply decided_of_onlyStory hR () (OnlyStory.refl hR.refl)
    intro emit
    simp [resume, hpaused]

/--
Whether a request emits an event at most once, and does nothing more after it.
-/
def isPlain : Operation S E → Bool
  | .stop => false
  | .start _ autoAdvance => !autoAdvance
  | _ => true

omit hR [Engine S E] in
theorem isPlain_cases (request : Operation S E)
    : isPlain request = true ∨ request = .stop ∨ ∃ story, request = .start story true := by
  cases request with
  | stop => exact Or.inr (Or.inl rfl)
  | start story autoAdvance =>
    cases autoAdvance with
    | false => exact Or.inl rfl
    | true => exact Or.inr (Or.inr ⟨story, rfl⟩)
  | _ => exact Or.inl rfl

/--
Whether the story of a session changes as a relation allows, when a request is one that may take a
choice, load a state or reach for the story itself.
-/
def StaysWithin (R : E → E → Prop) (s : Session S E) : Operation S E → Prop
  | .choose index _ | .tryChoose index _ =>
    s.runner.paused = false → s.OnlyStory R (s.commit index).2
  | .load text => s.OnlyStory R (s.load text).2
  | .touch act => s.OnlyStory R (s.touch act).2
  | _ => True

omit hR in
theorem staysWithin_true (request : Operation S E) : StaysWithin (fun _ _ => True) s request := by
  cases request with
  | choose => exact fun _ => onlyStory_commit (by simp) (by simp)
  | tryChoose => exact fun _ => onlyStory_commit (by simp) (by simp)
  | load => exact onlyStory_load (by simp) (by simp)
  | touch => exact onlyStory_touch (by simp) (by simp)
  | _ => trivial

theorem decided_operation {request : Operation S E} (hplain : isPlain request = true)
    (hwithin : StaysWithin R s request) : Decided R s (operation · request) := by
  cases request with
  | advance => exact (tried_tryAdvance hR).reporting hR
  | tryAdvance => exact (tried_tryAdvance hR).decided hR
  | choose index autoAdvance => exact (tried_tryChoose hR hwithin autoAdvance).reporting hR
  | tryChoose index autoAdvance => exact (tried_tryChoose hR hwithin autoAdvance).decided hR
  | start story autoAdvance =>
    cases autoAdvance with
    | false => exact decided_start hR story
    | true => simp [isPlain] at hplain
  | reset => exact decided_reset hR
  | rewind => exact decided_rewind hR
  | pause => exact decided_pause hR
  | resume => exact decided_resume hR
  | stop => simp [isPlain] at hplain
  | tearDown => exact decided_of_decides hR () .tornDown fun _ => rfl
  | unsubscribe token =>
    exact decided_of_decides hR (s.unsubscribe token).1 (.unsubscribed token) fun _ => rfl
  | setVariable name value =>
    exact decided_of_onlyStory hR () (onlyStory_setVariable hR name value) fun _ => rfl
  | trySetVariable name value =>
    exact decided_of_onlyStory hR _ (onlyStory_trySetVariable hR name value) fun _ => rfl
  | readVariable name kind =>
    exact decided_of_onlyStory hR _ (onlyStory_readVariable hR.refl name kind) fun _ => rfl
  | observe name observer =>
    exact decided_of_onlyStory hR () (onlyStory_observe hR name observer) fun _ => rfl
  | observeAll names observer =>
    exact decided_of_onlyStory hR () (onlyStory_observeAll hR names observer) fun _ => rfl
  | bind function lookaheadSafe =>
    exact decided_of_onlyStory hR () (onlyStory_bind hR function lookaheadSafe) fun _ => rfl
  | save => exact decided_of_onlyStory hR _ (onlyStory_save hR.refl) fun _ => rfl
  | load text => exact decided_of_onlyStory hR _ hwithin fun _ => rfl
  | touch act => exact decided_of_onlyStory hR _ hwithin fun _ => rfl
  | remember change =>
    have honly : s.OnlyStory R (s.remember change) := onlyStory_of_eq hR.refl rfl rfl
    exact decided_of_onlyStory hR () honly fun _ => rfl
  | note text => exact decided_of_onlyStory hR () (onlyStory_note hR.refl rfl) fun _ => rfl
  | log level message => exact decided_of_onlyStory hR () (onlyStory_note hR.refl rfl) fun _ => rfl
  | _ => exact decided_of_onlyStory hR _ (OnlyStory.refl hR.refl) fun _ => rfl

omit hR in
theorem decided_plain {request : Operation S E} (hplain : isPlain request = true)
    : Decided (fun _ _ => True) s (operation · request) := by
  exact decided_operation Engine.respects_true hplain (staysWithin_true request)

omit hR in
theorem start_advance (emit : Event → Run S E Unit) (story : E)
    : outcome (start emit story true) s
        =
      outcome (do
        start emit story false
        if s.runner.story.isNone then
          advance emit) s := by
  cases hstory : s.runner.story with
  | none => simp [start, hstory]
  | some other => simp [start, hstory]

end Run
end Parley
