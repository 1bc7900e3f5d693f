import Mathlib.Data.List.TakeWhile
import Parley.Proofs.Course
import Parley.Proofs.History.Delivery
import Parley.Script.Story

/-!
This module contains how the state of a runner follows from the events that it emits: they are a
word of an automaton, and the state that they lead to is the state of the runner, if no teardown and
no handler for the end of a session interferes.
-/

namespace Parley

namespace Status

/--
The state that an event leads to, if it may be emitted in a state.
-/
def next? : Status → Event → Option Status
  | .idle, .started => some .active
  | .active, .paused => some .paused
  | .paused, .resumed => some .active
  | .active, .restarted => some .active
  | .paused, .restarted => some .active
  | .active, .newLine _ => some .active
  | .active, .newChoices _ => some .active
  | .active, .ended => some .active
  | .active, .stopped => some .idle
  | .paused, .stopped => some .idle
  | _, _ => none

/--
The state that events lead to, if each of them may be emitted where it is.
-/
def after? (events : List Event) : Option Status :=
  events.foldlM next? .idle

theorem after?_concat (events : List Event) (event : Event)
    : after? (events ++ [event]) = (after? events).bind (next? · event) := by
  unfold after?
  rw [List.foldlM_append]
  simp

end Status

namespace History

def word (h : History) : Option Status :=
  Status.after? (emitted h)

theorem word_emitted (event : Event) (past : History)
    : word (.emitted event :: past) = (word past).bind (Status.next? · event) := by
  exact Status.after?_concat (emitted past) event

theorem disturbed_of_suffix {past h : History} (hs : past <:+ h) (hh : disturbed h = false)
    : disturbed past = false := by
  obtain ⟨later, rfl⟩ := hs
  induction later with
  | nil => exact hh
  | cons entry later ih =>
    apply ih
    cases entry with
    | emitted event =>
      simp only [List.cons_append, disturbed, Bool.or_eq_false_iff] at hh
      exact hh.1
    | _ => exact hh

end History

namespace Session

open History

variable {S E : Type} {R : E → E → Prop} {s s' : Session S E}

theorem OnlyStory.status (h : OnlyStory R s s') : s'.runner.status = s.runner.status := by
  apply Runner.status_congr h.present
  rw [h.runner]

variable [Engine S E] {event : Option Event} {stopping : Bool}

theorem Decides.status (h : Decides R s event s') (htorn : .tornDown ∉ s'.history)
    : event.elim (some s.runner.status) (Status.next? s.runner.status) = some s'.runner.status := by
  cases h with
  | onlyStory honly => exact congrArg some honly.status.symm
  | line hactive _ _ _ hrunner =>
    have hunpaused := (Runner.status_eq_active.mp hactive).2
    have hactive' : s'.runner.status = .active := by
      rw [Runner.status_eq_active, hrunner]
      exact ⟨rfl, hunpaused⟩
    rw [hactive, hactive']
    rfl
  | choices hactive _ _ _ hrunner | ended hactive _ hrunner =>
    have hactive' : s'.runner.status = .active := by
      rw [Runner.status_eq_active] at hactive ⊢
      rw [hrunner]
      exact hactive
    rw [hactive, hactive']
    rfl
  | started story hidle =>
    rw [Runner.status_eq_idle.mpr hidle]
    rfl
  | restarted hpresent _ hrunner =>
    have hactive' : s'.runner.status = .active := by
      rw [Runner.status_eq_active, hrunner]
      exact ⟨rfl, rfl⟩
    rw [hactive']
    cases hpaused : s.runner.paused with
    | true =>
      rw [Runner.status_eq_paused.mpr ⟨hpresent, hpaused⟩]
      rfl
    | false =>
      rw [Runner.status_eq_active.mpr ⟨hpresent, hpaused⟩]
      rfl
  | rewound hpresent _ hrunner =>
    have hsame : s.runner.status = s'.runner.status := by
      apply Runner.status_congr
      . rw [hpresent, hrunner]
        rfl
      . rw [hrunner]
        rfl
    exact congrArg some hsame
  | paused hactive _ hrunner =>
    have hpaused' : s'.runner.status = .paused := by
      rw [Runner.status_eq_active] at hactive
      rw [Runner.status_eq_paused, hrunner]
      exact ⟨hactive.1, rfl⟩
    rw [hactive, hpaused']
    rfl
  | resumed hpaused _ hrunner =>
    have hactive' : s'.runner.status = .active := by
      rw [Runner.status_eq_paused] at hpaused
      rw [Runner.status_eq_active, hrunner]
      exact ⟨hpaused.1, rfl⟩
    rw [hpaused, hactive']
    rfl
  | tornDown => simp at htorn
  | unsubscribed token =>
    rcases unsubscribe_cases s token with hnone | ⟨_, _, _, hrunner⟩
    . rw [hnone]
      rfl
    . rw [hrunner]
      rfl

theorem Decides.word (h : Decides R s event s') : word s'.history = word s.history := by
  exact h.reads (fun _ => rfl) (fun _ => rfl) (fun _ _ => rfl)

omit [Engine S E] in
theorem word_announce (hword : History.word s.history = some s.runner.status)
    (hpresent : s.runner.story.isSome = true) : History.word s.announce.history = some .idle := by
  have hstops : Status.next? s.runner.status .stopped = some .idle := by
    cases hpaused : s.runner.paused with
    | true =>
      rw [Runner.status_eq_paused.mpr ⟨hpresent, hpaused⟩]
      rfl
    | false =>
      rw [Runner.status_eq_active.mpr ⟨hpresent, hpaused⟩]
      rfl
  have hstopping : History.word (.stopping :: s.history) = some s.runner.status := hword
  rw [history_announce, word_emitted, hstopping]
  exact hstops

theorem Change.word (h : Change R stopping s s') (hword : word s.history = some s.runner.status)
    (htorn : .tornDown ∉ s'.history) : History.word s'.history = some s'.runner.status := by
  cases h with
  | @decided event decided hdecides =>
    cases event with
    | none =>
      have hstatus := hdecides.status htorn
      rw [enqueue?, Option.elim, hdecides.word, hword]
      exact hstatus
    | some event =>
      have hstatus : Status.next? s.runner.status event = some decided.runner.status := by
        apply hdecides.status
        simpa [enqueue?] using htorn
      rw [enqueue?, Option.elim, history_enqueue, word_emitted, hdecides.word, hword]
      exact hstatus
  | stopped _ hpresent =>
    have hreleased : History.word s.announce.release.history = History.word s.announce.history := by
      rw [history_release]
      rfl
    exact hreleased.trans (word_announce hword hpresent)

/--
Whether a handler for the end of a session is at work and no event was emitted since that end was
announced.
-/
structure SilentSinceStop (token : Token) (s : Session S E) : Prop where
  word : History.word s.history = some .idle
  pending : s.runner.pending = []
  working : inProgress s.history = [token]
  occasion : History.occasion s.history = some .stopped

omit [Engine S E] in
theorem SilentSinceStop.undisturbed {token : Token} (h : SilentSinceStop token s) (event : Event)
    : disturbed (.emitted event :: s.history) = true := by
  simp [disturbed, h.working, h.occasion]

theorem SilentSinceStop.decided {token : Token} (h : SilentSinceStop token s)
    (hdecides : Decides R s event s')
    : SilentSinceStop token s' := by
  have hpending : s'.runner.pending = [] := by
    rcases hdecides.frame.2 with heq | heq
    . exact heq.trans h.pending
    . exact heq
  have hworking : inProgress s'.history = inProgress s.history :=
    hdecides.reads (fun _ => rfl) (fun _ => rfl) (fun _ _ => rfl)
  have hoccasion : History.occasion s'.history = History.occasion s.history :=
    hdecides.reads (fun _ => rfl) (fun _ => rfl) (fun _ _ => rfl)
  exact ⟨hdecides.word.trans h.word, hpending, hworking.trans h.working, hoccasion.trans h.occasion⟩

theorem SilentSinceStop.change {token : Token} (h : SilentSinceStop token s)
    (hchange : Change R stopping s s') (hdisturbed : disturbed s'.history = false)
    : SilentSinceStop token s' := by
  cases hchange with
  | @decided event decided hdecides =>
    have hdecided := h.decided hdecides
    cases event with
    | none => exact hdecided
    | some event =>
      rw [enqueue?, Option.elim, history_enqueue, hdecided.undisturbed] at hdisturbed
      contradiction
  | stopped =>
    have hs : .emitted .stopped :: .stopping :: s.history <:+ s.announce.release.history := by
      rw [history_release, history_announce]
      exact List.suffix_cons _ _
    have hpast := disturbed_of_suffix hs hdisturbed
    simp [disturbed, inProgress, History.occasion, h.working, h.occasion] at hpast

theorem SilentSinceStop.perform {token : Token} (h : SilentSinceStop token s)
    (request : Operation S E) (hdisturbed : disturbed (s.perform request).2.history = false)
    : SilentSinceStop token (s.perform request).2 := by
  have hkeeps : disturbed (s.perform request).2.history = false →
      SilentSinceStop token (s.perform request).2 := by
    apply perform_keeps (fun t => disturbed t.history = false → SilentSinceStop token t) request
        _ fun _ => h
    intro t t' hchange ih hdisturbed
    exact (ih (disturbed_of_suffix hchange.suffix hdisturbed)).change hchange hdisturbed
  exact hkeeps hdisturbed

theorem word_perform (hword : History.word s.history = some s.runner.status)
    (request : Operation S E) (htorn : .tornDown ∉ (s.perform request).2.history)
    : History.word (s.perform request).2.history = some (s.perform request).2.runner.status := by
  have hkeeps : .tornDown ∉ (s.perform request).2.history →
      History.word (s.perform request).2.history = some (s.perform request).2.runner.status := by
    apply perform_keeps
      (fun t => .tornDown ∉ t.history → History.word t.history = some t.runner.status) request _
      fun _ => hword
    intro t t' hchange ih htorn
    exact hchange.word (ih fun hmem => htorn (hchange.suffix.mem hmem)) htorn
  exact hkeeps htorn

end Session

namespace Stage

open Session History

variable {S E : Type}

def stopping : Stage S E → Bool
  | .outside stopping => stopping
  | .draining stopping => stopping
  | .delivering stopping _ _ => stopping
  | .working stopping _ _ _ => stopping

/--
Whether there is no event to deliver but the announcement of the end of a session.
-/
def Lone (s : Session S E) : Stage S E → Prop
  | .outside _ | .draining _ => s.runner.pending = [] ∨ s.runner.pending = [.stopped]
  | .delivering _ event _ | .working _ event _ _ => s.runner.pending = [] ∧ event = .stopped

/--
Whether the events of a session lead to the state that its runner is in, or is about to be in.
-/
def Follows (s : Session S E) (stage : Stage S E) : Prop :=
  if stage.stopping then
    word s.history = some .idle ∧ stage.Lone s
  else
    word s.history = some s.runner.status

variable {s s' : Session S E} {stage stage' : Stage S E}

theorem Follows.aside (h : stage.Follows s) (hword : word s'.history = word s.history)
    (hstatus : s'.runner.status = s.runner.status) (hstopping : stage'.stopping = stage.stopping)
    (hlone : stage.Lone s → stage'.Lone s') : stage'.Follows s' := by
  unfold Follows at h ⊢
  rw [hstopping, hword, hstatus]
  split at h
  . next hs =>
    rw [if_pos hs]
    exact ⟨h.1, hlone h.2⟩
  . next hs =>
    rw [if_neg hs]
    exact h

variable [Engine S E] {move : Move S E}

theorem Follows.step (h : stage.Follows s) (hdescribes : stage.Describes s)
    (hstep : stage.Step s move stage') (htorn : .tornDown ∉ (s.move move).history)
    (hdisturbed : disturbed (s.move move).history = false) : stage'.Follows (s.move move) := by
  cases hstep with
  | perform _ request _ => exact word_perform h request htorn
  | subscribe _ kind handler =>
    refine h.aside ?_ rfl rfl id
    rw [Session.move, history_subscribe]
    rfl
  | announce hsettled hpresent =>
    have hpending : s.announce.runner.pending = [.stopped] := by
      rw [announce, enqueue_runner]
      exact congrArg (· ++ [.stopped]) hsettled
    exact ⟨word_announce h hpresent, Or.inr hpending⟩
  | release _ =>
    have hword : word s.release.history = word s.history := by
      rw [history_release]
      rfl
    exact hword.trans h.1
  | dispatch _ => exact h.aside rfl rfl rfl id
  | settle _ => exact h.aside rfl rfl rfl id
  | @take stopping event rest hqueued =>
    have hrunner : s.take.runner = { s.runner with pending := rest } := by
      rw [take_eq hqueued]
      rfl
    have hstatus : s.take.runner.status = s.runner.status := by
      rw [hrunner]
      rfl
    refine h.aside ?word hstatus rfl ?lone
    case word =>
      rw [Session.move, history_take hqueued]
      rfl
    case lone =>
      intro hlone
      have hqueue : event = .stopped ∧ rest = [] := by
        simpa [Lone, hqueued] using hlone
      have hpending : s.take.runner.pending = rest := by
        rw [hrunner]
      exact ⟨hpending.trans hqueue.2, hqueue.1⟩
  | @enter stopping event token _ rest =>
    refine h.aside ?_ rfl rfl id
    rw [Session.move, history_enter]
    rfl
  | @request stopping event token rest request =>
    cases stopping with
    | true =>
      have hoccasion : occasion s.history = some event := Poised.occasion hdescribes
      have hsilent : SilentSinceStop token s := by
        refine ⟨h.1, h.2.1, Poised.working hdescribes, ?_⟩
        rw [hoccasion, h.2.2]
      have hsilent' := hsilent.perform request hdisturbed
      exact ⟨hsilent'.word, hsilent'.pending, h.2.2⟩
    | false => exact word_perform h request htorn
  | @enroll stopping event token rest kind handler =>
    refine h.aside ?_ rfl rfl id
    rw [Session.move, history_subscribe]
    rfl
  | @leave stopping event token rest =>
    refine h.aside ?_ rfl rfl id
    rw [Session.move, history_leave]
    rfl

end Stage

section Course

open Session History

variable {S E : Type} [Engine S E] {stage : Stage S E} {c : Course S E}

theorem Staged.follows (h : Staged stage c) (htorn : .tornDown ∉ c.now.history)
    (hdisturbed : disturbed c.now.history = false) : stage.Follows c.now := by
  induction h with
  | begin options memory => rfl
  | @push _ _ c move before step ih =>
    have hs : c.now.history <:+ (c.now.move move).history := suffix_move move
    specialize ih (fun hmem => htorn (hs.mem hmem)) (disturbed_of_suffix hs hdisturbed)
    exact ih.step before.describes step htorn hdisturbed
  | delivered _ ih =>
    specialize ih htorn hdisturbed
    exact ih.aside rfl rfl rfl fun hlone => Or.inl hlone.1

theorem Staged.word (h : Staged stage c) (htorn : .tornDown ∉ c.now.history)
    (hdisturbed : disturbed c.now.history = false)
    : ∃ status, Status.after? (emitted c.now.history) = some status := by
  have hfollows := h.follows htorn hdisturbed
  unfold Stage.Follows at hfollows
  split at hfollows
  . exact ⟨.idle, hfollows.1⟩
  . exact ⟨c.now.runner.status, hfollows⟩

theorem AtRest.delivered (h : AtRest c) (htorn : .tornDown ∉ c.now.history)
    (hdisturbed : disturbed c.now.history = false)
    : Status.after? (delivered c.now.history) = some c.now.runner.status := by
  have hword : Status.after? (emitted c.now.history) = some c.now.runner.status :=
    h.1.follows htorn hdisturbed
  have hsound := h.1.sound
  have hqueue := hsound.lawful.emitted_eq
  have hsince : sinceTearDown c.now.history = c.now.history := by
    unfold sinceTearDown
    rw [List.takeWhile_eq_self_iff]
    intro entry hmem
    have hne : entry ≠ .tornDown := by
      intro heq
      rw [heq] at hmem
      exact htorn hmem
    simpa using hne
  rw [hsince, ← hsound.pending, h.2, List.append_nil] at hqueue
  rw [← hqueue]
  exact hword

end Course

namespace Session

open History

variable {S E : Type} [Engine S E] (options : LoadOptions) (memory : S) (bound : Nat)
  (host : Program S E)

theorem run_follows_status
    (htorn : .tornDown ∉ ((Session.new options memory).run bound host).2.history)
    (hdisturbed : disturbed ((Session.new options memory).run bound host).2.history = false)
    : let (result, s) := (Session.new options memory).run bound host
      (∃ status, Status.after? (emitted s.history) = some status) ∧
        (result.isSome = true →
          Status.after? (delivered s.history) = some s.runner.status ∧
            ∀ operation reply s', s.request bound operation = (some reply, s') →
              .tornDown ∉ s'.history → disturbed s'.history = false →
                Status.after? (delivered s'.history) = some s'.runner.status) := by
  obtain ⟨hnow, ⟨stage, hstaged⟩, hrests⟩ := staged_course options memory bound host
  generalize (Session.new options memory).run bound host = ended at *
  obtain ⟨result, s⟩ := ended
  dsimp only at *
  rw [← hnow] at htorn hdisturbed ⊢
  refine ⟨hstaged.word htorn hdisturbed, ?_⟩
  intro hdone
  specialize hrests hdone
  refine ⟨hrests.delivered htorn hdisturbed, ?_⟩
  intro operation reply s' hrequest htorn' hdisturbed'
  obtain ⟨c', hrests', hnow'⟩ := hrests.request hrequest
  rw [← hnow'] at htorn' hdisturbed' ⊢
  exact hrests'.delivered htorn' hdisturbed'

/--
A host that pauses a story as soon as it is started and looks at it when it is stopped.
-/
def intermission : Program Unit (Script.Story Unit) :=
  Routine.program do
    let _ ← Routine.subscribe .started fun _ => Routine.perform .pause
    let _ ← Routine.subscribe .stopped fun _ => do
      let _ ← Routine.perform .look
    Routine.perform (.start (.new .empty []) false)
    Routine.perform .resume
    Routine.perform .stop

theorem run_follows_intermission
    : delivered ((Session.new {} ()).run 3 intermission).2.history
          = [.started, .paused, .resumed, .stopped] ∧
        Status.after? (delivered ((Session.new {} ()).run 3 intermission).2.history)
          = some ((Session.new {} ()).run 3 intermission).2.runner.status := by
  have hfollows := run_follows_status {} () 3 intermission (by decide) (by decide)
  exact ⟨by decide, (hfollows.2 (by decide)).1⟩

end Session
end Parley
