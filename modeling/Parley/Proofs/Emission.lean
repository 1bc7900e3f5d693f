import Parley.Proofs.Stage

/-!
This module contains what is emitted. An emission writes its event down before anything else
happens, and the events of a course are those that its moves announce, one after the other.
-/

namespace Parley

namespace Run

variable {S E α β : Type}

theorem kept_suffix (past : History) : Kept (fun s : Session S E => past <:+ s.history) where
  quiet hq h := by
    rw [hq.history]
    exact h
  adopt story _ h := by
    rw [Session.history_adopt]
    exact h.trans (List.suffix_cons _ _)
  subscribe kind handler h := by
    rw [Session.history_subscribe]
    exact h.trans (List.suffix_cons _ _)
  unsubscribe {s} token h := by
    rcases Session.unsubscribe_cases s token with hnone | ⟨_, _, hhistory, _⟩
    . rw [hnone]
      exact h
    . rw [hhistory]
      exact h.trans (List.suffix_cons _ _)
  tearDown h := by
    rw [Session.history_tearDown]
    exact h.trans (List.suffix_cons _ _)

/--
Whether a computation only adds to the history, with or without a result.
-/
def Prolongs (m : Run S E α) : Prop :=
  ∀ s past, past <:+ s.history →
    Ends m s (fun _ s' => past <:+ s'.history) (fun s' => past <:+ s'.history)

theorem Prolongs.bind {m : Run S E α} {f : α → Run S E β} (hm : Prolongs m)
    (hf : ∀ a, Prolongs (f a))
    : Prolongs (m >>= f) := by
  intro s past hs
  rw [ends_bind]
  apply (hm s past hs).mono
  . intro a s' hs'
    exact hf a s' past hs'
  . intro s' hs'
    exact hs'

theorem prolongs_pure (a : α) : Prolongs (pure a : Run S E α) := by
  intro s past hs
  exact hs

theorem prolongs_get : Prolongs (get : Run S E (Session S E)) := by
  intro s past hs
  exact hs

theorem prolongs_modify {f : Session S E → Session S E} (hf : ∀ s, s.history <:+ (f s).history)
    : Prolongs (modify f : Run S E PUnit) := by
  intro s past hs
  exact hs.trans (hf s)

theorem prolongs_record {entry : Session S E → Record} (hentry : ∀ s, (entry s).isNote = false)
    : Prolongs (modify fun s => s.record (entry s) : Run S E PUnit) := by
  apply prolongs_modify
  intro s
  rw [Session.history_record (hentry s)]
  exact List.suffix_cons _ _

section Emit

variable {emit : Event → Run S E Unit} (hemit : ∀ event, Prolongs (emit event))

include hemit

theorem prolongs_stop : Prolongs (stop emit) := by
  unfold stop
  refine prolongs_get.bind fun s => ?_
  split
  . refine (prolongs_record fun _ => rfl).bind fun _ => (hemit .stopped).bind fun _ => ?_
    apply prolongs_modify
    intro s
    rw [Session.history_release]
    exact List.suffix_cons _ _
  . exact prolongs_pure ()

variable [Engine S E]

theorem prolongs_program (p : Program S E) : Prolongs (program emit p) := by
  intro s past hs
  apply ends_program (kept_suffix past) _ _ hs
  . intro event s' _ hs'
    exact hemit event s' past hs'
  . intro s' hs'
    exact prolongs_stop hemit s' past hs'

theorem prolongs_deliver (event : Event) (handlers : List (Token × Handler S E))
    : Prolongs (deliver (program emit) event handlers) := by
  induction handlers with
  | nil => exact prolongs_pure ()
  | cons entry rest ih =>
    obtain ⟨token, handler⟩ := entry
    unfold deliver
    refine (prolongs_record fun _ => rfl).bind fun _ => ?_
    refine (prolongs_program hemit (handler event)).bind fun _ => ?_
    refine (prolongs_record fun _ => rfl).bind fun _ => prolongs_get.bind fun s => ?_
    split
    . exact prolongs_pure ()
    . exact ih

end Emit

theorem prolongs_settle {drain : Run S E Unit} (hdrain : Prolongs drain)
    : Prolongs (do
        if (← get).runner.dispatching then
          return
        modify (·.mapRunner ({ · with dispatching := true }))
        drain
        modify (·.mapRunner ({ · with dispatching := false })) : Run S E Unit) := by
  apply prolongs_get.bind
  intro s
  split
  . exact prolongs_pure ()
  . apply Prolongs.bind
    . exact prolongs_modify fun _ => List.suffix_rfl
    . intro _
      apply hdrain.bind
      intro _
      exact prolongs_modify fun _ => List.suffix_rfl

theorem ends_emitWith_suffix {drain : Run S E Unit} (hdrain : Prolongs drain) (event : Event)
    (s : Session S E)
    : Ends (emitWith drain event) s
        (fun _ s' => .emitted event :: s.history <:+ s'.history)
        (fun s' => .emitted event :: s.history <:+ s'.history) := by
  unfold emitWith
  rw [ends_bind, ends_modify]
  apply prolongs_settle hdrain
  simp only [Session.history_enqueue, List.suffix_rfl]

theorem prolongs_emitWith {drain : Run S E Unit} (hdrain : Prolongs drain) (event : Event)
    : Prolongs (emitWith drain event) := by
  intro s past hs
  apply (ends_emitWith_suffix hdrain event s).mono
  . intro _ s' hs'
    exact hs.trans ((List.suffix_cons _ _).trans hs')
  . intro s' hs'
    exact hs.trans ((List.suffix_cons _ _).trans hs')

variable [Engine S E]

theorem prolongs_drain (bound : Nat) : Prolongs (drain bound : Run S E Unit) := by
  induction bound with
  | zero =>
    intro s past hs
    exact hs
  | succ bound ih =>
    intro s past hs
    unfold drain
    simp only [ends_bind, ends_get]
    split
    . exact hs
    . next event rest hpending =>
      simp only [ends_bind, ends_set]
      have htaken : past <:+ ((s.mapRunner ({ · with pending := rest })).record
          (.delivering event)).history := by
        rw [Session.history_record rfl, Session.history_mapRunner]
        exact hs.trans (List.suffix_cons _ _)
      apply (prolongs_deliver (prolongs_emitWith ih) event _ _ past htaken).mono
      . intro _ s' hs'
        exact ih s' past hs'
      . intro s' hs'
        exact hs'

-- What an emission does first is to write its event down. What is delivered then comes later.
theorem suffix_emitWith (bound : Nat) (event : Event) (s : Session S E)
    : .emitted event :: s.history <:+ (outcome (emitWith (drain bound) event) s).2.history := by
  have hends := ends_emitWith_suffix (prolongs_drain bound) event s
  unfold Ends at hends
  unfold outcome
  split at hends
  . next heq =>
    rw [heq]
    exact hends
  . next heq =>
    rw [heq]
    exact hends

end Run

namespace Session

open History

variable {S E : Type} [Engine S E] {s s' : Session S E}

def stepEvent? (s : Session S E) : Option Event :=
  if s.runner.paused then none else s.step.1.toOption

/--
The events that a request announces itself, in order. What its handlers make others announce is not
among them.
-/
def announces (s : Session S E) : Operation S E → List Event
  | .advance | .tryAdvance => s.stepEvent?.toList
  | .choose index autoAdvance | .tryChoose index autoAdvance =>
    if s.runner.paused then
      []
    else
      match s.commit index with
      | (.error _, _) => []
      | (.ok _, s) => if autoAdvance then s.stepEvent?.toList else []
  | .start story autoAdvance =>
    if s.runner.story.isSome then
      []
    else
      .started :: if autoAdvance then (s.adopt story).stepEvent?.toList else []
  | .reset =>
    match s.runner.story with
    | none => []
    | some story => if (Engine.reset story s.world.unwritten).1.isOk then [.restarted] else []
  | .pause => if s.runner.status = .active then [.paused] else []
  | .resume => if s.runner.status = .paused then [.resumed] else []
  | .stop => if s.runner.story.isSome then [.stopped] else []
  | _ => []

/--
The events that a move announces, in order.
-/
def heralds (s : Session S E) : Move S E → List Event
  | .perform request => s.announces request
  | .announce => [.stopped]
  | _ => []

omit [Engine S E] in
theorem emitted_enqueue (event : Event)
    : emitted (s.enqueue event).history = emitted s.history ++ [event] := by
  rw [history_enqueue]
  rfl

theorem history_step : s.step.2.history = s.history := by
  unfold step
  split
  . rfl
  . split
    . split
      . next error story world hfails => exact history_absorb story world
      . next line story world hgoes => exact history_absorb story world
    . split
      . rfl
      . rfl

theorem stepEvent_enqueue (event : Event) : (s.enqueue event).stepEvent? = s.stepEvent? := by
  have hworld : (s.enqueue event).world.unwritten = s.world.unwritten := rfl
  unfold stepEvent? step
  rw [enqueue_runner, hworld]
  cases s.runner.story with
  | none => rfl
  | some story =>
    dsimp only
    split
    . rfl
    . split
      . rcases Engine.continueOne story s.world.unwritten with ⟨_ | _, _, _⟩
        . rfl
        . rfl
      . cases Engine.choices story with
        | nil => rfl
        | cons choice choices => rfl

section Announces

omit [Engine S E] in
theorem emitted_reporting {m : Run S E (Except RunnerError Unit)} {events : List Event}
    (h : emitted (outcome m s).2.history = emitted s.history ++ events)
    : emitted (outcome (do Run.reporting (← m)) s).2.history = emitted s.history ++ events := by
  apply Run.keeps_reporting (I := fun t => emitted t.history = emitted s.history ++ events) _ h
  intro t error ht
  rw [(report_frame error).1, ht]

theorem emitted_tryAdvance
    : emitted (outcome (Run.tryAdvance Run.queue) s).2.history
        =
      emitted s.history ++ s.stepEvent?.toList := by
  have hhistory := s.history_step
  unfold stepEvent?
  cases hpaused : s.runner.paused with
  | true => simp [Run.tryAdvance, hpaused]
  | false =>
    generalize hstep : s.step = stepped at hhistory
    obtain ⟨_ | event, s'⟩ := stepped
    . simp [Run.tryAdvance, hpaused, hstep, hhistory, Except.toOption]
    . simp [Run.tryAdvance, Run.queue, hpaused, hstep, hhistory, Except.toOption, emitted]

theorem emitted_tryChoose (index : Nat) (autoAdvance : Bool)
    : emitted (outcome (Run.tryChoose Run.queue index autoAdvance) s).2.history
        =
      emitted s.history ++ s.announces (.tryChoose index autoAdvance) := by
  have honly : s.OnlyStory (fun _ _ => True) (s.commit index).2 :=
    onlyStory_commit (by simp) (by simp)
  cases hpaused : s.runner.paused with
  | true => simp [Run.tryChoose, announces, hpaused]
  | false =>
    generalize hcommit : s.commit index = committed at honly
    obtain ⟨_ | _, s'⟩ := committed
    . simp [Run.tryChoose, announces, hpaused, hcommit, honly.history]
    . rw [Run.tryChoose_taken hpaused hcommit, ← honly.history]
      simp only [announces, hpaused, hcommit]
      cases autoAdvance with
      | true => exact emitted_tryAdvance
      | false => exact (List.append_nil _).symm

theorem emitted_start (story : E) (autoAdvance : Bool)
    : emitted (outcome (Run.start Run.queue story autoAdvance) s).2.history
        =
      emitted s.history ++ s.announces (.start story autoAdvance) := by
  cases hpresent : s.runner.story with
  | some other =>
    rw [Run.start_refused Run.queue story autoAdvance hpresent, (report_frame _).1]
    simp [announces, hpresent]
  | none =>
    simp only [announces, hpresent]
    cases autoAdvance with
    | false => simp [Run.start, Run.queue, hpresent, emitted]
    | true =>
      rw [Run.start_queue hpresent]
      have hadvance :=
        emitted_reporting (emitted_tryAdvance (s := (s.adopt story).enqueue .started))
      rw [stepEvent_enqueue, emitted_enqueue, history_adopt] at hadvance
      rw [List.append_assoc] at hadvance
      exact hadvance

theorem emitted_reset
    : emitted (outcome (Run.reset Run.queue) s).2.history
        =
      emitted s.history ++ s.announces .reset := by
  cases hpresent : s.runner.story with
  | none => simp [Run.reset, announces, hpresent]
  | some story =>
    cases hreset : Engine.reset story s.world.unwritten with
    | mk result rest =>
      obtain ⟨story', world⟩ := rest
      cases result with
      | error error =>
        simp [Run.reset, Run.report, announces, hpresent, hreset, (report_frame _).1, Except.isOk,
          Except.toBool]
      | ok _ =>
        simp [Run.reset, Run.queue, announces, hpresent, hreset, emitted, Except.isOk,
          Except.toBool]

-- What a request does before its event is decided for good, so the event does not depend on how it
-- is emitted. There is none if the request comes to the same end however that is done.
theorem emitted_silent {request : Operation S E} (hplain : Run.isPlain request = true)
    (hsilent : ∀ emit emit', Run.operation emit request = Run.operation emit' request)
    : emitted (s.perform request).2.history = emitted s.history := by
  obtain ⟨begun, event, decided, reply, honly, hdecides, hm⟩ := Run.decided_plain (s := s) hplain
  have hnone : event = none := by
    cases event with
    | none => rfl
    | some event =>
      have hlost : outcome (Run.operation (fun _ => failure) request) s = (none, decided) := hm _
      have hkept : outcome (Run.operation (fun _ => pure ()) request) s = (some reply, decided) :=
        hm _
      rw [hsilent _ fun _ => pure (), hkept] at hlost
      simp at hlost
  have hperform : (s.perform request).2 = decided := by
    rw [perform_eq, hm, hnone]
    rfl
  have hemitted : emitted decided.history = emitted begun.history :=
    hdecides.reads (fun _ => rfl) (fun _ => rfl) (fun _ _ => rfl)
  rw [hperform, hemitted, honly.history]

theorem emitted_perform (request : Operation S E)
    : emitted (s.perform request).2.history = emitted s.history ++ s.announces request := by
  have hsilent : Run.isPlain request = true →
      (∀ emit emit', Run.operation emit request = Run.operation emit' request) →
      emitted (s.perform request).2.history = emitted s.history := emitted_silent
  rw [perform_eq]
  cases request with
  | advance => exact emitted_reporting emitted_tryAdvance
  | tryAdvance => exact emitted_tryAdvance
  | choose index autoAdvance => exact emitted_reporting (emitted_tryChoose index autoAdvance)
  | tryChoose index autoAdvance => exact emitted_tryChoose index autoAdvance
  | start story autoAdvance => exact emitted_start story autoAdvance
  | reset => exact emitted_reset
  | pause =>
    simp only [Run.operation, Run.pause, announces, outcome_bind, outcome_get]
    split
    . simp [Run.queue, emitted]
    . simp
  | resume =>
    simp only [Run.operation, Run.resume, announces, outcome_bind, outcome_get]
    split
    . simp [Run.queue, emitted]
    . simp
  | stop =>
    cases hpresent : s.runner.story.isSome with
    | true =>
      have hstop : outcome (Run.operation Run.queue .stop) s = (some (), s.announce.release) :=
        Run.stop_queue hpresent
      simp [hstop, announces, hpresent, emitted]
    | false =>
      have hstop : outcome (Run.operation Run.queue .stop) s = (some (), s) :=
        Run.stop_refused Run.queue hpresent
      simp [hstop, announces, hpresent]
  | _ => exact (hsilent rfl fun _ _ => rfl).trans (List.append_nil _).symm

-- One step of a course: its move adds to what was emitted just what it announces.
theorem emitted_move (move : Move S E)
    : emitted (s.move move).history = emitted s.history ++ s.heralds move := by
  cases move with
  | perform request => exact emitted_perform request
  | take =>
    cases hpending : s.runner.pending with
    | nil => simp [Session.move, heralds, take, hpending]
    | cons event rest => simp [Session.move, heralds, history_take hpending, emitted]
  | dispatch underway => exact (List.append_nil _).symm
  | _ => simp [Session.move, heralds, emitted]

end Announces

end Session

namespace Course

open Session History

variable {S E : Type} [Engine S E]

def announced (c : Course S E) : List Event :=
  go c.start c.moves
where
  go (start : Session S E) : List (Move S E) → List Event
    | [] => []
    | move :: moves => go start moves ++ (Course.mk start moves).now.heralds move

theorem announced_push (c : Course S E) (move : Move S E)
    : (c.push move).announced = c.announced ++ c.now.heralds move := rfl

end Course

theorem Staged.emitted_announced {S E : Type} [Engine S E] {stage : Stage S E} {c : Course S E}
    (h : Staged stage c) : History.emitted c.now.history = c.announced := by
  induction h with
  | begin options memory => rfl
  | push _ _ ih => rw [Course.now_push, Session.emitted_move, ih, Course.announced_push]
  | delivered _ ih => exact ih

end Parley
