import Parley.Proofs.Drive
import Parley.Proofs.Promise

/-!
This module contains a dialogue that is driven by one of its handlers, which goes on at every line.
A single request of the host then leads through all lines to the choices, to the end or to a
failure. What lets this come to an end is not the queue, which the handler fills again and again,
but the number of lines that lie ahead in the story.
-/

namespace Parley

open Script

/--
How the continuations of a story come out, from the first one to the one behind the last line.
-/
def Script.Story.results {S : Type} (s : Story S) : List (Except EngineError Event) :=
  s.lines.map (fun line => .ok (.newLine line)) ++ [s.finish]

def Event.among (results : List (Except EngineError Event)) : List Event :=
  results.flatMap fun result => result.toOption.toList

/--
The calls that a story gets when it goes on and that comes out like this.
-/
def Call.asked : Except EngineError Event → List Call
  | .error error => [.canContinue true, .continueOne (.error error)]
  | .ok (.newLine line) => [.canContinue true, .continueOne (.ok line)]
  | .ok (.newChoices offered) => [.canContinue false, .choices offered]
  | .ok _ => [.canContinue false, .choices []]

/--
Whether a program goes on just once, and all its other requests are passive.
-/
inductive Program.Advances {S E T : Type} (share : S → T) : Program S E → Prop where
  | here {next : Unit → Program S E} (rest : ∀ reply, (next reply).Passive share)
      : Advances share (.perform .advance next)
  | later {request : Operation S E} {next : request.Reply → Program S E}
      (passive : request.Passive share) (rest : ∀ reply, Advances share (next reply))
      : Advances share (.perform request next)

def Registry.hearing {S E : Type} (registry : Registry (Handler S E)) (events : List Event)
    : List (Token × Event) :=
  events.flatMap fun event => event.told (registry.handlers event.kind)

/--
Whether, among the handlers of what a dialogue shows, just one does more than listen: it goes on at
every line.
-/
structure Registry.Sweeps {S E : Type} (registry : Registry (Handler S E)) : Prop where
  line : ∃ front token handler back,
    registry.handlers .newLine = front ++ (token, handler) :: back ∧
      Course.Listen (fun _ => ()) (front ++ back) ∧
      ∀ line, (handler (.newLine line)).Advances (fun _ => ())
  rest : ∀ kind, kind.isShown = true → kind ≠ .newLine →
    Course.Listen (fun _ => ()) (registry.handlers kind)

namespace Session

variable {S E : Type}

/--
Queues the event that going on has led to, or logs the failure of the story.
-/
def answer (s : Session S E) : Except EngineError Event → Session S E
  | .ok event => s.enqueue event
  | .error error => s.log .error error.message

theorem runner_answer (s : Session S E) (result : Except EngineError Event)
    : (s.answer result).runner
        =
      { s.runner with pending := s.runner.pending ++ result.toOption.toList } := by
  cases result with
  | error error =>
    have hsame : s.runner.pending ++ (Except.error error : Except EngineError Event).toOption.toList
        = s.runner.pending := List.append_nil _
    rw [hsame]
    rfl
  | ok event => rfl

theorem heard_answer (s : Session S E) (result : Except EngineError Event)
    : History.heard (s.answer result).history = History.heard s.history := by
  cases result with
  | error error => rw [answer, history_log]
  | ok event =>
    rw [answer, history_enqueue]
    rfl

theorem emitted_answer (s : Session S E) (result : Except EngineError Event)
    : History.emitted (s.answer result).history
        =
      History.emitted s.history ++ result.toOption.toList := by
  cases result with
  | error error =>
    rw [answer, history_log]
    exact (List.append_nil _).symm
  | ok event =>
    rw [answer, history_enqueue]
    rfl

variable [Engine S E] {s s' : Session S E}

theorem Turns.asks {story : E} {turned : Except RunnerError Event}
    (hstory : s.runner.story = some story) (h : s.Turns story turned s')
    : ∃ result : Except EngineError Event,
        turned = result.mapError .engine ∧ s.stepCalls = Call.asked result := by
  unfold stepCalls
  rw [hstory]
  cases h with
  | @failed error _ _ _ hmore hfails =>
    exact ⟨.error error, rfl, by simp [hmore, hfails, Call.asked]⟩
  | @line line _ _ _ hmore hgoes =>
    exact ⟨.ok (.newLine line), rfl, by simp [hmore, hgoes, Call.asked]⟩
  | choices hhalted => exact ⟨.ok (.newChoices _), rfl, by simp [hhalted, Call.asked]⟩
  | ended hhalted hnone => exact ⟨.ok .ended, rfl, by simp [hhalted, hnone, Call.asked]⟩

theorem perform_advance {story : E} (hstory : s.runner.story = some story)
    (hpaused : s.runner.paused = false)
    : ∃ result : Except EngineError Event, s.step.1 = result.mapError .engine ∧
        s.calls (.perform .advance) = Call.asked result ∧
        s.perform .advance = (some (), s.step.2.answer result) := by
  obtain ⟨result, hturned, hcalls⟩ := (turns_step hstory).asks hstory
  refine ⟨result, hturned, ?_, ?_⟩
  . simp [calls, hpaused, hcalls]
  . rw [perform_eq]
    generalize hended : s.step = ended at hturned
    obtain ⟨turned, s'⟩ := ended
    obtain rfl : turned = result.mapError .engine := hturned
    cases result with
    | error error =>
      rw [mapError_error] at hended
      simp only [Run.operation, Run.advance, Run.tryAdvance, outcome_bind, outcome_get,
        hpaused, hended]
      rfl
    | ok event =>
      rw [mapError_ok] at hended
      simp only [Run.operation, Run.advance, Run.tryAdvance, outcome_bind, outcome_get,
        hpaused, hended]
      rfl

end Session

theorem Script.arrival_kind (steps : List Step)
    : (arrival steps).kind.isShown = true ∧ (arrival steps).kind ≠ .newLine := by
  unfold arrival
  split
  . unfold offering
    split
    . exact ⟨rfl, by simp [Event.kind]⟩
    . exact ⟨rfl, by simp [Event.kind]⟩
  . exact ⟨rfl, by simp [Event.kind]⟩

namespace Session

variable {S : Type} {s s' : Session S (Faulty (Story S))} {f f' : Faulty (Story S)}

/--
What comes after a continuation that came out like this and left this story behind: there is more
after a line alone.
-/
inductive ComesNext (f' : Faulty (Story S))
    : Except EngineError Event → List (Except EngineError Event) → Prop where
  | line {line : Line} {rest : List (Except EngineError Event)} (ahead : f'.story.results = rest)
      : ComesNext f' (.ok (.newLine line)) rest
  | last {event : Event} (shown : event.kind.isShown = true) (other : event.kind ≠ .newLine)
      (halted : Engine.canContinue f' = false) : ComesNext f' (.ok event) []
  | failed {error : EngineError} : ComesNext f' (.error error) []

theorem Nears.comesNext {result : Except EngineError Event} (hstory : s.runner.story = some f)
    (h : s.Nears f (result.mapError .engine) s')
    : ∃ f' rest, f.story.results = result :: rest ∧ ComesNext f' result rest ∧
        f'.faults = f.faults ∧
        s'.runner =
          { s.runner with
            story := some f', line := s'.runner.line, choices := s'.runner.choices } := by
  unfold Story.results
  cases result with
  | error error =>
    rw [mapError_error] at h
    cases h with
    | @fails _ f' _ hahead hfinish _ _ hfaults hrunner =>
      refine ⟨f', [], by simp [hahead, hfinish], .failed, hfaults, ?_⟩
      rw [hrunner]
  | ok event =>
    rw [mapError_ok] at h
    cases h with
    | @line line f' _ hahead hfinish hfaults hrunner =>
      refine ⟨f', f'.story.results, ?_, .line rfl, hfaults, ?_⟩
      . rw [hahead, Story.results, hfinish, List.map_cons, List.cons_append]
      . rw [hrunner]
    | rests hahead _ hfinish hhalted hrunner =>
      have hevent : f.story.finish = .ok (arrival f.story.beyond) :=
        (Story.halts (s := f.story) hhalted).2.2.1
      obtain ⟨hshown, hother⟩ := arrival_kind f.story.beyond
      rw [hfinish] at hevent
      cases hevent
      refine ⟨f, [], by simp [hahead, hfinish], .last hshown hother hhalted, rfl, ?_⟩
      rw [hrunner, ← hstory]

end Session

namespace Course

/--
Whether a run went on while these calls of handlers were made, these events were queued and the
story got these calls.
-/
structure Brings {S E : Type} [Engine S E] (heard : List (Token × Event)) (events : List Event)
    (calls : List Call) (c c' : Course S E) : Prop where
  heard : History.heard c'.now.history = History.heard c.now.history ++ heard
  emitted : History.emitted c'.now.history = History.emitted c.now.history ++ events
  calls : c'.calls = c.calls ++ calls

section Brings

variable {S E T : Type} [Engine S E] {share : S → T} {c c' c'' : Course S E}
    {heard heard' : List (Token × Event)} {events events' : List Event} {calls calls' : List Call}

theorem Hears.brings (h : Hears share heard c c') : Brings heard [] [] c c' where
  heard := h.heard
  emitted := by
    rw [h.emitted, List.append_nil]
  calls := by
    rw [h.calls, List.append_nil]

theorem Brings.trans (h : Brings heard events calls c c') (h' : Brings heard' events' calls' c' c'')
    : Brings (heard ++ heard') (events ++ events') (calls ++ calls') c c'' where
  heard := by
    rw [h'.heard, h.heard, List.append_assoc]
  emitted := by
    rw [h'.emitted, h.emitted, List.append_assoc]
  calls := by
    rw [h'.calls, h.calls, List.append_assoc]

theorem Brings.hears (h : Brings heard events calls c c') (h' : Hears share heard' c' c'')
    : Brings (heard ++ heard') events calls c c'' := by
  simpa using h.trans h'.brings

theorem Hears.trans_brings (h : Hears share heard c c') (h' : Brings heard' events calls c' c'')
    : Brings (heard ++ heard') events calls c c'' := by
  exact h.brings.trans h'

end Brings

variable {S : Type} {c c' c'' : Course S (Faulty (Story S))} {f f' : Faulty (Story S)}
  {result : Except EngineError Event} {rest : List (Except EngineError Event)}

/--
Whether a run may go on with a story whose continuations are not made to fail.
-/
structure Ready (f : Faulty (Story S)) (c : Course S (Faulty (Story S))) : Prop where
  story : c.now.runner.story = some f
  paused : c.now.runner.paused = false
  works : .continueOne ∉ f.faults

/--
Whether a run has gone on once, with this result, and which results then lie ahead.
-/
structure Strides (f : Faulty (Story S)) (result : Except EngineError Event) (f' : Faulty (Story S))
    (rest : List (Except EngineError Event)) (c c' : Course S (Faulty (Story S))) : Prop where
  ahead : f.story.results = result :: rest
  next : Session.ComesNext f' result rest
  brings : Brings [] result.toOption.toList (Call.asked result) c c'
  registry : c'.now.runner.registry = c.now.runner.registry
  pending : c'.now.runner.pending = c.now.runner.pending ++ result.toOption.toList
  ready : Ready f' c'

theorem Ready.strides (h : Ready f c)
    : ∃ result f' rest, Strides f result f' rest c (c.push (.perform .advance)) := by
  have hturns := Session.turns_step h.story
  obtain ⟨result, hturned, hcalls, hperform⟩ := Session.perform_advance h.story h.paused
  rw [hturned] at hturns
  obtain ⟨f', rest, hahead, hnext, hfaults, hrunner⟩ := (hturns.nears h.works).comesNext h.story
  have hhistory := hturns.history
  generalize c.now.step.2 = s' at hperform hrunner hhistory
  have hnow : (c.push (.perform .advance)).now = s'.answer result := by
    rw [now_push, Session.move, hperform]
  refine ⟨result, f', rest, hahead, hnext, ⟨?_, ?_, ?_⟩, ?_, ?_, ?_, ?_, ?_⟩
  . rw [hnow, Session.heard_answer, hhistory, List.append_nil]
  . rw [hnow, Session.emitted_answer, hhistory]
  . rw [calls_push, hcalls]
  . rw [hnow, Session.runner_answer, hrunner]
  . rw [hnow, Session.runner_answer, hrunner]
  . rw [hnow, Session.runner_answer, hrunner]
  . rw [hnow, Session.runner_answer, hrunner]
    exact h.paused
  . rw [hfaults]
    exact h.works

section Strides

variable {T : Type} {share : S → T}

theorem Ready.congr (h : Ready f c) (hrunner : c'.now.runner = c.now.runner) : Ready f c' where
  story := by
    rw [hrunner]
    exact h.story
  paused := by
    rw [hrunner]
    exact h.paused
  works := h.works

theorem Strides.after (h : Strides f result f' rest c' c'') (hhears : Hears share [] c c')
    (hrunner : c'.now.runner = c.now.runner) : Strides f result f' rest c c'' where
  ahead := h.ahead
  next := h.next
  brings := hhears.trans_brings h.brings
  registry := by
    rw [h.registry, hrunner]
  pending := by
    rw [h.pending, hrunner]
  ready := h.ready

theorem Strides.before (h : Strides f result f' rest c c') (hhears : Hears share [] c' c'')
    (hrunner : c''.now.runner = c'.now.runner) : Strides f result f' rest c c'' where
  ahead := h.ahead
  next := h.next
  brings := h.brings.hears hhears
  registry := by
    rw [hrunner, h.registry]
  pending := by
    rw [hrunner, h.pending]
  ready := h.ready.congr hrunner

theorem runs_advances {p : Program S (Faulty (Story S))} (hadvances : p.Advances share)
    (h : Ready f c)
    : ∃ result f' rest c', Strides f result f' rest c c' ∧
        outcome (Walk.program Walk.perform p) c = (some (), c') := by
  induction hadvances generalizing c with
  | @here next hrest =>
    obtain ⟨result, f', rest, hstrides⟩ := h.strides
    obtain ⟨reply, hperform⟩ := walk_perform c .advance
    obtain ⟨c', hruns, hhears, hrunner⟩ :=
      runs_program (c := c.push (.perform .advance)) _ (hrest reply)
    refine ⟨result, f', rest, c', hstrides.before hhears hrunner, ?_⟩
    rw [Walk.program, outcome_bind, hperform]
    exact hruns
  | later hpassive _ ih =>
    obtain ⟨reply, hperform, hhears, hrunner⟩ := runs_request (c := c) hpassive
    obtain ⟨result, f', rest, c', hstrides, hruns⟩ := ih reply (h.congr hrunner)
    refine ⟨result, f', rest, c', hstrides.after hhears hrunner, ?_⟩
    rw [Walk.program, outcome_bind, hperform]
    exact hruns

end Strides

/--
Whether a delivery of what one continuation has led to comes to an end after these further ones, and
where it then is.
-/
structure Swept (registry : Registry (Handler S (Faulty (Story S))))
    (result : Except EngineError Event) (rest : List (Except EngineError Event))
    (c : Course S (Faulty (Story S))) (f' : Faulty (Story S)) (c' : Course S (Faulty (Story S)))
    : Prop where
  brings : Brings (registry.hearing (Event.among (result :: rest))) (Event.among rest)
    (rest.flatMap Call.asked) c c'
  story : c'.now.runner.story = some f'
  halted : ∀ event, (result :: rest).getLast? = some (.ok event) → Engine.canContinue f' = false
  pending : c'.now.runner.pending = []
  drains : ∀ bound, rest.length + 1 < bound → outcome (Walk.drain bound) c = (some (), c')

theorem Brings.refl {S E : Type} [Engine S E] (c : Course S E) : Brings [] [] [] c c := by
  exact ⟨(List.append_nil _).symm, (List.append_nil _).symm, (List.append_nil _).symm⟩

theorem swept_last {event : Event} (hshown : event.kind.isShown = true)
    (hother : event.kind ≠ .newLine) (hhalted : Engine.canContinue f = false) (hready : Ready f c)
    (hsweeps : c.now.runner.registry.Sweeps) (hpending : c.now.runner.pending = [event])
    : ∃ c', Swept c.now.runner.registry (.ok event) [] c f c' := by
  have hlisten : Listen (fun _ => ()) (c.now.runner.registry.handlers event.kind) :=
    hsweeps.rest event.kind hshown hother
  obtain ⟨c', hhears, hrunner, hdrain⟩ := drain_listeners hpending hlisten
  have hsettled : c'.now.runner.pending = [] := by
    rw [hrunner]
  refine ⟨c', ?_, ?_, ?_, hsettled, ?_⟩
  . have hheard : c.now.runner.registry.hearing (Event.among [.ok event])
        = event.told (c.now.runner.registry.handlers event.kind) := List.append_nil _
    rw [hheard]
    exact hhears.brings
  . rw [hrunner]
    exact hready.story
  . exact fun _ _ => hhalted
  . intro bound hbound
    obtain ⟨bound, rfl⟩ := Nat.exists_eq_add_of_le' (Nat.succ_le_of_lt hbound)
    exact (hdrain _).trans (drain_nil hsettled bound)

-- The handler goes on before the handlers behind it have heard the line, and the next event is not
-- taken from the queue until all have.
theorem drain_line {line : Line} (hready : Ready f c) (hsweeps : c.now.runner.registry.Sweeps)
    (hpending : c.now.runner.pending = [.newLine line])
    : ∃ result f' rest c', f.story.results = result :: rest ∧ Session.ComesNext f' result rest ∧
        Ready f' c' ∧
        c'.now.runner.registry = c.now.runner.registry ∧
        c'.now.runner.pending = result.toOption.toList ∧
        Brings ((Event.newLine line).told (c.now.runner.registry.handlers .newLine))
          result.toOption.toList (Call.asked result) c c' ∧
        ∀ bound, outcome (Walk.drain (bound + 1)) c = outcome (Walk.drain bound) c' := by
  obtain ⟨front, token, handler, back, hhandlers, hlisten, hadvances⟩ := hsweeps.line
  obtain ⟨c₁, hhears₁, hrunner₁, hhandler⟩ := drain_among hpending hhandlers hlisten
  have hready₁ : Ready f c₁ := by
    refine ⟨?_, ?_, hready.works⟩
    . rw [hrunner₁]
      exact hready.story
    . rw [hrunner₁]
      exact hready.paused
  obtain ⟨result, f', rest, c₂, hstrides, hruns⟩ := runs_advances (hadvances line) hready₁
  have hregistry : c₂.now.runner.registry = c.now.runner.registry := by
    rw [hstrides.registry, hrunner₁]
  obtain ⟨c₃, hhears₃, hrunner₃, hdrain⟩ := hhandler c₂ hruns hregistry
  rw [← hrunner₃] at hregistry
  refine ⟨result, f', rest, c₃, hstrides.ahead, hstrides.next, hstrides.ready.congr hrunner₃,
    hregistry, ?_, ?_, hdrain⟩
  . rw [hrunner₃, hstrides.pending, hrunner₁]
    rfl
  . rw [hhandlers, Event.told_append]
    simpa [Event.told] using (hhears₁.trans_brings hstrides.brings).hears hhears₃

-- With each line fewer results lie ahead, which is what the induction is on.
theorem swept (hnext : Session.ComesNext f result rest)
    (hready : Ready f c) (hsweeps : c.now.runner.registry.Sweeps)
    (hpending : c.now.runner.pending = result.toOption.toList)
    : ∃ f' c', Swept c.now.runner.registry result rest c f' c' := by
  induction rest generalizing c f result with
  | nil =>
    cases hnext with
    | line hahead => simp [Story.results] at hahead
    | failed =>
      refine ⟨f, c, .refl c, hready.story, by simp, hpending, ?_⟩
      intro bound hbound
      obtain ⟨bound, rfl⟩ := Nat.exists_eq_succ_of_ne_zero (Nat.ne_zero_of_lt hbound)
      exact drain_nil hpending bound
    | last hshown hother hhalted =>
      exact ⟨f, swept_last hshown hother hhalted hready hsweeps hpending⟩
  | cons next rest ih =>
    cases hnext with
    | @line line _ hahead =>
      obtain ⟨result, f₁, _, c₁, hahead', hnext₁, hready₁, hregistry, hpending₁,
        hbrings, hdrain⟩ :=
        drain_line hready hsweeps hpending
      obtain ⟨rfl, rfl⟩ := List.cons.inj (hahead.symm.trans hahead')
      obtain ⟨f', c', hswept⟩ := ih hnext₁ hready₁ (hregistry ▸ hsweeps) hpending₁
      rw [hregistry] at hswept
      refine ⟨f', c', ?_, hswept.story, ?_, hswept.pending, ?_⟩
      . exact hbrings.trans hswept.brings
      . intro event hlast
        rw [List.getLast?_cons_cons] at hlast
        exact hswept.halted event hlast
      . intro bound hbound
        obtain ⟨bound, rfl⟩ := Nat.exists_eq_succ_of_ne_zero (Nat.ne_zero_of_lt hbound)
        exact (hdrain bound).trans (hswept.drains bound (Nat.lt_of_succ_lt_succ hbound))

-- A single request settles what it has queued: nothing if the story has failed, and all that
-- follows from the first event otherwise.
theorem Strides.settles (h : Strides f result f' rest c (c.push (.perform .advance)))
    (hpending : c.now.runner.pending = []) (hsweeps : c.now.runner.registry.Sweeps)
    : ∃ f'' c', Brings (c.now.runner.registry.hearing (Event.among f.story.results))
          (Event.among f.story.results) (f.story.results.flatMap Call.asked) c c' ∧
        c'.now.runner.story = some f'' ∧
        (∀ event, f.story.finish = .ok event → Engine.canContinue f'' = false) ∧
        ∀ bound, f.story.results.length < bound →
          outcome (Walk.settle bound) (c.push (.perform .advance)) = (some (), c') := by
  have hqueued := h.pending
  rw [hpending, List.nil_append] at hqueued
  have hlast : (result :: rest).getLast? = some f.story.finish := by
    rw [← h.ahead]
    exact List.getLast?_concat
  rw [h.ahead]
  cases result with
  | error error =>
    have hnext := h.next
    cases hnext
    refine ⟨f', c.push (.perform .advance), ?_, h.ready.story, ?_, ?_⟩
    . rw [List.flatMap_singleton]
      exact h.brings
    . intro event hfinish
      rw [hfinish] at hlast
      cases hlast
    . intro bound _
      exact settle_nil hqueued bound
  | ok event =>
    let c₁ := (c.push (.perform .advance)).push (.dispatch true)
    have hready : Ready f' c₁ := ⟨h.ready.story, h.ready.paused, h.ready.works⟩
    have hregistry : c₁.now.runner.registry = c.now.runner.registry := h.registry
    obtain ⟨f'', c₂, hswept⟩ := swept h.next hready (hregistry ▸ hsweeps) hqueued
    rw [hregistry] at hswept
    have hdispatch (c : Course S (Faulty (Story S))) (underway : Bool)
        : Hears (fun _ => ()) [] c (c.push (.dispatch underway)) := hears_dispatch underway
    have hbrings :=
      ((h.brings.hears (hdispatch _ true)).trans hswept.brings).hears (hdispatch _ false)
    refine ⟨f'', c₂.push (.dispatch false), ?_, hswept.story, ?_, ?_⟩
    . simpa [Event.among] using hbrings
    . intro event hfinish
      exact hswept.halted event (hlast.trans (congrArg some hfinish))
    . intro bound hbound
      rw [settle_cons hqueued, outcome_bind, hswept.drains bound hbound]
      rfl

theorem sweeps_segment (hrests : AtRest c) (hactive : c.now.runner.status = .active)
    (hstory : c.now.runner.story = some f) (hworks : .continueOne ∉ f.faults)
    (hsweeps : c.now.runner.registry.Sweeps)
    : (∃ f' c', (∀ bound, f.story.results.length < bound →
            c.now.request bound .advance = (some (), c'.now) ∧
              outcome (Walk.request bound .advance) c = (some (), c')) ∧
          AtRest c' ∧ c'.now.runner.story = some f' ∧
          Brings (c.now.runner.registry.hearing (Event.among f.story.results))
            (Event.among f.story.results) (f.story.results.flatMap Call.asked) c c' ∧
          ∀ event, f.story.finish = .ok event → Engine.canContinue f' = false) ∧
        ∀ (s : Session S (Faulty (Story S))) (story : Faulty (Story S)),
          s.runner.story = some story → s.runner.paused = false →
          ∃ result : Except EngineError Event,
            s.step.1 = result.mapError .engine ∧
            s.calls (.perform .advance) = Call.asked result ∧
            s.perform .advance = (some (), s.step.2.answer result) := by
  obtain ⟨_, hpaused⟩ := Runner.status_eq_active.mp hactive
  have hready : Ready f c := ⟨hstory, hpaused, hworks⟩
  obtain ⟨result, _, rest, hstrides⟩ := hready.strides
  obtain ⟨f', c', hbrings, hstory', hhalted, hsettles⟩ := hstrides.settles hrests.2 hsweeps
  obtain ⟨reply, hperform⟩ := walk_perform c .advance
  have hwalk : ∀ bound, f.story.results.length < bound →
      outcome (Walk.request bound .advance) c = (some (), c') := by
    intro bound hbound
    rw [request_plain bound rfl, outcome_bind, hperform]
    simp [hsettles bound hbound]
  have hdone := fun bound hbound => hrests.walk (hwalk bound hbound)
  refine ⟨⟨f', c', ?_, (hdone _ (Nat.lt_succ_self _)).2, hstory', hbrings, hhalted⟩, ?_⟩
  . intro bound hbound
    exact ⟨(hdone bound hbound).1, hwalk bound hbound⟩
  . intro s story hpresent hunpaused
    exact Session.perform_advance hpresent hunpaused

/--
A handler that goes on while an event is delivered and notes down that it has.
-/
def sweeper : Handler Unit (Faulty (Story Unit)) := fun _ =>
  .perform .advance fun _ => .perform (.note "on") fun _ => .done

def bystander : Handler Unit (Faulty (Story Unit)) := fun _ =>
  .perform (.note "heard") fun _ => .done

/--
A run in which one handler goes on at every line, before another one hears of it.
-/
def promenade : Course Unit (Faulty (Story Unit)) :=
  let steps : List Step :=
    [.line ⟨"one", []⟩, .set "x" (.int 1), .line ⟨"two", []⟩, .choices [("left", 0)]]
  (Session.new {} ()).course 2
    (.subscribe .newLine sweeper fun _ => .subscribe .newLine bystander fun _ =>
      .subscribe .newChoices bystander fun _ =>
        .perform (.start ⟨.new .empty [steps], []⟩ false) fun _ => .done)

theorem sweeps_promenade : promenade.now.runner.registry.Sweeps where
  line := by
    refine ⟨[], ⟨0⟩, sweeper, [(⟨1⟩, bystander)], rfl, ?_, ?_⟩
    . rw [List.nil_append, Listen, List.forall_mem_singleton]
      exact fun _ => ⟨trivial, fun _ => trivial⟩
    . intro line
      exact .here fun _ => ⟨trivial, fun _ => trivial⟩
  rest kind hshown hother := by
    cases kind with
    | newLine => contradiction
    | newChoices =>
      have hhandlers : promenade.now.runner.registry.handlers .newChoices
          = [(⟨2⟩, bystander)] := rfl
      rw [hhandlers, Listen, List.forall_mem_singleton]
      exact fun _ => ⟨trivial, fun _ => trivial⟩
    | ended => exact List.forall_mem_nil _
    | _ => cases hshown

theorem sweeps_segment_promenade
    : ∃ (f' : Faulty (Story Unit)) (c' : Course Unit (Faulty (Story Unit))),
        promenade.now.request 4 .advance = (some (), c'.now) ∧
        c'.now.runner.story = some f' ∧
        Engine.canContinue f' = false ∧
        History.emitted c'.now.history
          = [.started, .newLine ⟨"one", []⟩, .newLine ⟨"two", []⟩, .newChoices [⟨0, "left", []⟩]] ∧
        History.heard c'.now.history
          = [(⟨0⟩, .newLine ⟨"one", []⟩), (⟨1⟩, .newLine ⟨"one", []⟩), (⟨0⟩, .newLine ⟨"two", []⟩),
            (⟨1⟩, .newLine ⟨"two", []⟩), (⟨2⟩, .newChoices [⟨0, "left", []⟩])] := by
  have hrests : AtRest promenade := (Session.staged_course {} () 2 _).2.2 rfl
  obtain ⟨f, hstory⟩ : ∃ f, promenade.now.runner.story = some f := ⟨_, rfl⟩
  have hahead : .continueOne ∉ f.faults ∧ f.story.results
      = [.ok (.newLine ⟨"one", []⟩), .ok (.newLine ⟨"two", []⟩),
        .ok (.newChoices [⟨0, "left", []⟩])] := by
    cases hstory
    exact ⟨List.not_mem_nil, rfl⟩
  obtain ⟨⟨f', c', hdone, _, hstory', hbrings, hhalted⟩, _⟩ :=
    sweeps_segment hrests rfl hstory hahead.1 sweeps_promenade
  have hfinish : f.story.finish = .ok (.newChoices [⟨0, "left", []⟩]) := by
    have hlast : f.story.results.getLast? = some f.story.finish := List.getLast?_concat
    rw [hahead.2] at hlast
    exact (Option.some.inj hlast).symm
  rw [hahead.2] at hdone hbrings
  refine ⟨f', c', (hdone 4 (by simp)).1, hstory', hhalted _ hfinish, ?_, ?_⟩
  . rw [hbrings.emitted]
    rfl
  . rw [hbrings.heard]
    rfl

end Course

end Parley
