import Parley.Proofs.Course
import Parley.Proofs.History.Prompt
import Parley.Script.Story

/-!
This module contains whether a story is still there when its end is announced. A stop from outside
of any handler delivers its announcement before it releases the story. A stop out of a handler can
only queue the announcement and releases the story at once, so that the announcement comes too late.
-/

namespace Parley

namespace Session

open History

variable {S E : Type} [Engine S E] {R : E → E → Prop} {s s' : Session S E} {stopping : Bool}

/--
Whether all entries of a history are prompt and no stop is about to go on.
-/
structure Unhurried (s : Session S E) : Prop where
  prompt : AllPrompt s.history
  silent : ¬Announcing s.history

omit [Engine S E] in
theorem Unhurried.of_cons (h : Unhurried s) {entry : Record}
    (hhistory : s'.history = entry :: s.history)
    (hentry : ∀ token event status, entry ≠ .entered token event status)
    (honly : entry ≠ .emitted .stopped) : Unhurried s' where
  prompt := by
    rw [hhistory]
    exact h.prompt.cons h.silent hentry
  silent := by
    rw [hhistory]
    exact not_announcing_cons honly

theorem Unhurried.decided {event : Option Event} (h : Unhurried s) (hdecides : Decides R s event s')
    : Unhurried (s'.enqueue? event) := by
  have hdecided : Unhurried s' := by
    rcases hdecides.history_cases with heq | heq | heq | ⟨_, heq⟩
    . exact ⟨heq ▸ h.prompt, heq ▸ h.silent⟩
    all_goals exact h.of_cons heq (by simp) (by simp)
  cases event with
  | none => exact hdecided
  | some event =>
    have hne := hdecides.ne_stopped
    exact hdecided.of_cons (history_enqueue event) (by simp) (by simpa using hne)

omit [Engine S E] in
theorem Unhurried.announce (h : Unhurried s) : AllPrompt s.announce.history := by
  have hstopping : AllPrompt (.stopping :: s.history) := h.prompt.cons h.silent (by simp)
  rw [history_announce]
  exact hstopping.cons (not_announcing_cons (by simp)) (by simp)

theorem Unhurried.change (h : Unhurried s) (hchange : Change R stopping s s')
    (hinside : stopping = true → inProgress s.history ≠ [])
    : Unhurried s' ∧ inProgress s'.history = inProgress s.history := by
  cases hchange with
  | @decided event decided hdecides =>
    refine ⟨h.decided hdecides, ?_⟩
    have hworking : inProgress decided.history = inProgress s.history :=
      hdecides.reads (fun _ => rfl) (fun _ => rfl) (fun _ _ => rfl)
    cases event with
    | none => exact hworking
    | some event =>
      rw [enqueue?, Option.elim, history_enqueue]
      exact hworking
  | stopped hstops hpresent =>
    have hreleased : s.announce.runner.story.isSome = true := hpresent
    have hhistory : s.announce.release.history
        = .stopped true :: .emitted .stopped :: .stopping :: s.history := by
      rw [history_release, history_announce, hreleased]
    have hannounced := h.announce
    rw [history_announce] at hannounced
    refine ⟨⟨?prompt, ?silent⟩, by rw [hhistory]; rfl⟩
    case prompt =>
      rw [hhistory, allPrompt_cons]
      refine ⟨⟨by simp, by simp, ?_⟩, hannounced⟩
      intro before heq
      have hbefore : s.history = before := by
        simpa using heq
      rw [← hbefore, if_neg (hinside hstops)]
    case silent =>
      rw [hhistory]
      exact not_announcing_cons (by simp)

theorem Unhurried.perform (h : Unhurried s) (request : Operation S E)
    (hinside : Run.isPlain request = false → inProgress s.history ≠ [])
    : Unhurried (s.perform request).2 := by
  have hkeeps : Unhurried (s.perform request).2 ∧
      inProgress (s.perform request).2.history = inProgress s.history := by
    apply perform_keeps (fun t => Unhurried t ∧ inProgress t.history = inProgress s.history)
      request _ ⟨h, rfl⟩
    rintro t t' hchange ⟨ih, hworking⟩
    have hinside' : (!Run.isPlain request) = true → inProgress t.history ≠ [] := by
      rw [hworking]
      simpa using hinside
    obtain ⟨hunhurried, hworking'⟩ := ih.change hchange hinside'
    exact ⟨hunhurried, hworking'.trans hworking⟩
  exact hkeeps.1

end Session

namespace Stage

open Session History

variable {S E : Type} {s : Session S E} {stage stage' : Stage S E}

/--
Whether only a stop from outside of any handler is about to go on, and only where it can, and
whether handlers are called as soon as a delivery has begun.
-/
def Timely (h : History) : Stage S E → Prop
  | .outside true | .draining true =>
    ∀ before, h = .emitted .stopped :: .stopping :: before → inProgress before = [] ∧
      pending before = []
  | .delivering _ event _ =>
    ¬Announcing h ∧ (h.head? = some (.delivering event) ∨ called h ≠ [])
  | _ => ¬Announcing h

theorem Timely.of_onlyStory {h : History} (honly : ¬Announcing h) (stopping : Bool)
    : (Stage.draining stopping : Stage S E).Timely h := by
  cases stopping with
  | true => exact fun before heq => absurd ⟨before, heq⟩ honly
  | false => exact honly

variable [Engine S E] {move : Move S E}

theorem Timely.step (h : stage.Timely s.history) (hprompt : AllPrompt s.history)
    (hdescribes : stage.Describes s) (hstep : stage.Step s move stage')
    : AllPrompt (s.move move).history ∧ stage'.Timely (s.move move).history := by
  cases hstep with
  | perform _ request hplain =>
    have hs : Unhurried s := ⟨hprompt, h⟩
    have hs' := hs.perform request (by simp [hplain])
    exact ⟨hs'.prompt, hs'.silent⟩
  | subscribe _ kind handler =>
    have hs : Unhurried s := ⟨hprompt, h⟩
    have hs' := hs.of_cons (history_subscribe kind handler) (by simp) (by simp)
    exact ⟨hs'.prompt, hs'.silent⟩
  | announce hsettled hpresent =>
    obtain ⟨_, hp⟩ := hdescribes
    have hs : Unhurried s := ⟨hprompt, h⟩
    refine ⟨hs.announce, ?_⟩
    intro before heq
    rw [Session.move, history_announce] at heq
    have hbefore : s.history = before := by
      simpa using heq
    rw [← hbefore]
    exact ⟨hp.working, hp.sound.pending.symm.trans hsettled⟩
  | release hsettled =>
    obtain ⟨_, hp⟩ := hdescribes
    have honly : ¬Announcing s.history := by
      rintro ⟨before, heq⟩
      have hqueue := hp.sound.pending
      rw [hsettled, heq] at hqueue
      simp [pending] at hqueue
    have hs : Unhurried s := ⟨hprompt, honly⟩
    have hs' := hs.of_cons history_release (by simp) (by simp)
    exact ⟨hs'.prompt, hs'.silent⟩
  | @dispatch stopping _ =>
    cases stopping with
    | true => exact ⟨hprompt, h⟩
    | false => exact ⟨hprompt, h⟩
  | @settle stopping _ =>
    cases stopping with
    | true => exact ⟨hprompt, h⟩
    | false => exact ⟨hprompt, h⟩
  | @take stopping event rest hqueued =>
    obtain ⟨_, hp⟩ := hdescribes
    have hnow : ∀ before, s.history = .emitted .stopped :: .stopping :: before →
        inProgress before = [] ∧ pending before = [] := by
      cases stopping with
      | true => exact h
      | false => exact fun before heq => absurd ⟨before, heq⟩ h
    rw [Session.move, history_take hqueued, allPrompt_cons]
    refine ⟨⟨⟨by simp, by simp, ?_⟩, hprompt⟩, not_announcing_cons (by simp), Or.inl rfl⟩
    intro before heq
    obtain ⟨hidle, hnone⟩ := hnow before heq
    have hqueue : event :: rest = pending before ++ [.stopped] := by
      rw [← hqueued, hp.sound.pending, heq]
      rfl
    rw [hnone, List.nil_append, List.cons.injEq] at hqueue
    rw [if_pos hidle, hqueue.1]
    exact ⟨rfl, hnone⟩
  | @enter stopping event token _ rest =>
    obtain ⟨honly, hfirst⟩ := h
    have hactive := hdescribes.sound.active
    rw [Session.move, history_enter, allPrompt_cons]
    refine ⟨⟨⟨?_, ?_, ?_⟩, hprompt⟩, not_announcing_cons (by simp)⟩
    . intro _ _ status heq
      injection heq with _ _ heq
      rw [← heq, ne_eq, Runner.status_eq_idle, ← hactive]
      simp [Option.isSome_iff_ne_none]
    . intro _ other _ heq hnone
      injection heq with _ heq
      rw [← heq]
      rcases hfirst with hhead | hcalled
      . exact hhead
      . exact absurd hnone hcalled
    . intro before heq
      exact absurd ⟨before, heq⟩ honly
  | @request stopping event token rest request =>
    have hs : Unhurried s := ⟨hprompt, h⟩
    have hworking : inProgress s.history = [token] := Poised.working hdescribes
    have hs' := hs.perform request (by simp [hworking])
    exact ⟨hs'.prompt, hs'.silent⟩
  | @enroll stopping event token rest kind handler =>
    have hs : Unhurried s := ⟨hprompt, h⟩
    have hs' := hs.of_cons (history_subscribe kind handler) (by simp) (by simp)
    exact ⟨hs'.prompt, hs'.silent⟩
  | @leave stopping event token rest =>
    have hs : Unhurried s := ⟨hprompt, h⟩
    have hworking : inProgress s.history = [token] := Poised.working hdescribes
    have hcalled : called s.history ≠ [] := by
      apply hdescribes.sound.lawful.called_ne_nil
      simp [hworking]
    have hs' := hs.of_cons (history_leave token) (by simp) (by simp)
    refine ⟨hs'.prompt, hs'.silent, Or.inr ?_⟩
    rw [Session.move, history_leave]
    exact hcalled

end Stage

open Session History

variable {S E : Type} [Engine S E] {stage : Stage S E} {c : Course S E}

theorem Staged.timely (h : Staged stage c)
    : AllPrompt c.now.history ∧ stage.Timely c.now.history := by
  induction h with
  | begin options memory => exact ⟨allPrompt_nil, by rintro ⟨before, heq⟩; contradiction⟩
  | push before step ih => exact ih.2.step ih.1 before.describes step
  | @delivered stopping _ _ _ ih =>
    obtain ⟨hprompt, honly, _⟩ := ih
    exact ⟨hprompt, .of_onlyStory honly stopping⟩

namespace Session

variable (options : LoadOptions) (memory : S) (bound : Nat) (host : Program S E)

-- The story that is stopped has the number `adoptions before`.
theorem run_keeps_story (token : Token) (status : Status) (past : History)
    (hs : .entered token .stopped status :: past
      <:+ ((Session.new options memory).run bound host).2.history)
    (hfirst : called past = [])
    : ∃ before, cause past = some (.emitted .stopped :: .stopping :: before) ∧
        active before = true ∧
        (active past = true ↔ status ≠ .idle) ∧
        ((active past = true ∧ adoptions past = adoptions before) ↔ inProgress before = []) := by
  obtain ⟨hnow, ⟨_, hstaged⟩, _⟩ := staged_course options memory bound host
  rw [← hnow] at hs
  exact hstaged.timely.1.presence hstaged.sound.lawful hs hfirst

/--
A host with a handler for the end of a session, which is stopped by the host itself or out of a
handler for the start of its story.
-/
def curtain (inside : Bool) : Program Unit (Script.Story Unit) :=
  Routine.program do
    let _ ← Routine.subscribe .stopped fun _ => pure ()
    if inside then
      let _ ← Routine.subscribe .started fun _ => Routine.perform .stop
    Routine.perform (.start (.new .empty []) false)
    Routine.perform .stop

theorem history_curtain
    : ((Session.new {} ()).run 3 (curtain false)).2.history
          =
        [.stopped true, .left ⟨0⟩, .entered ⟨0⟩ .stopped .active, .delivering .stopped,
          .emitted .stopped, .stopping, .delivering .started, .emitted .started, .adopted,
          .subscribed .stopped ⟨0⟩] ∧
      ((Session.new {} ()).run 3 (curtain true)).2.history
          =
        [.left ⟨0⟩, .entered ⟨0⟩ .stopped .idle, .delivering .stopped, .left ⟨1⟩, .stopped true,
          .emitted .stopped, .stopping, .entered ⟨1⟩ .started .active, .delivering .started,
          .emitted .started, .adopted, .subscribed .started ⟨1⟩, .subscribed .stopped ⟨0⟩] := by
  decide

theorem run_keeps_curtain
    : ∃ past before, .entered ⟨0⟩ .stopped .active :: past
          <:+ ((Session.new {} ()).run 3 (curtain false)).2.history ∧
        cause past = some (.emitted .stopped :: .stopping :: before) ∧ inProgress before = [] ∧
        active past = true ∧ adoptions past = adoptions before := by
  have hs : .entered ⟨0⟩ .stopped .active :: [.delivering .stopped, .emitted .stopped, .stopping,
        .delivering .started, .emitted .started, .adopted, .subscribed .stopped ⟨0⟩]
      <:+ ((Session.new {} ()).run 3 (curtain false)).2.history := by
    rw [history_curtain.1]
    decide
  obtain ⟨before, hcause, _, _, hkept⟩ := run_keeps_story {} () 3 (curtain false) _ _ _ hs rfl
  have hbefore : before
      = [.delivering .started, .emitted .started, .adopted, .subscribed .stopped ⟨0⟩] := by
    simpa [cause, queued] using hcause.symm
  have houtside : inProgress before = [] := by
    rw [hbefore]
    rfl
  exact ⟨_, before, hs, hcause, houtside, hkept.mpr houtside⟩

theorem run_drops_curtain
    : ∃ past before, .entered ⟨0⟩ .stopped .idle :: past
          <:+ ((Session.new {} ()).run 3 (curtain true)).2.history ∧
        called past = [] ∧ cause past = some (.emitted .stopped :: .stopping :: before) ∧
        active before = true ∧ active past = false := by
  rw [history_curtain.2]
  exact ⟨_, _, List.suffix_cons _ _, rfl, rfl, rfl, rfl⟩

end Session
end Parley
