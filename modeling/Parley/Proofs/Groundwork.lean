import Mathlib.Data.List.Basic
import Parley.Proofs.Change

namespace Parley

/--
Whether an entry of a journal is the trace of a story: a function that it called, or an observer
whom it told of a change. No runner writes such an entry.
-/
def Record.isTrace : Record → Bool
  | .called .. | .changed .. => true
  | _ => false

/--
What an entry of a journal says of a change: who was told of it, the variable and its new value.
-/
def Record.change? : Record → Option (Observer × String × Value)
  | .changed observer name value => some (observer, name, value)
  | _ => none

namespace World

variable {S : Type} (w : World S)

def traces : List Record :=
  w.chronicle.filter Record.isTrace

def told : List (Observer × String × Value) :=
  w.chronicle.filterMap Record.change?

theorem told_eq : w.told = w.traces.filterMap Record.change? := by
  unfold told traces
  rw [List.filterMap_filter]
  apply List.filterMap_congr
  intro entry _
  cases entry with
  | _ => rfl

theorem chronicle_record (entry : Record)
    : (w.record entry).chronicle = w.chronicle ++ [entry] := by
  exact List.reverse_cons

theorem traces_record {entry : Record} (hentry : entry.isTrace = false)
    : (w.record entry).traces = w.traces := by
  rw [traces, chronicle_record, List.filter_append, List.filter_singleton, hentry]
  exact List.append_nil _

theorem told_record (entry : Record) : (w.record entry).told = w.told ++ entry.change?.toList := by
  unfold told
  rw [chronicle_record, List.filterMap_append]
  cases entry with
  | _ => rfl

@[simp]
theorem told_log (level : Level) (message : String) : (w.log level message).told = w.told := by
  have hlog : (Record.log level message).change? = none := rfl
  rw [log, told_record, hlog, Option.toList_none, List.append_nil]

theorem told_notify (observers : List Observer) (name : String) (value : Value)
    : (w.notify observers name value).told
        = w.told ++ observers.map fun observer => (observer, name, value) := by
  unfold notify
  induction observers generalizing w with
  | nil => rw [List.foldl_nil, List.map_nil, List.append_nil]
  | cons observer observers ih =>
    rw [List.foldl_cons, ih, told_record, List.map_cons, List.append_assoc]
    rfl

@[simp]
theorem told_unwritten : w.unwritten.told = [] := rfl

end World

namespace Session

variable {S E : Type} {s s' t : Session S E}

def traces (s : Session S E) : List Record :=
  s.world.traces

def told (s : Session S E) : List (Observer × String × Value) :=
  s.world.told

section Traces

theorem told_of_traces (h : s.traces = s'.traces) : s.told = s'.told := by
  have hworld : s.world.traces = s'.world.traces := h
  rw [told, World.told_eq, hworld, ← World.told_eq, told]

theorem traces_absorb (story : E) (world : World S)
    : (s.absorb story world).traces = s.traces ++ world.traces := by
  have hnotes : (world.journal.filter Record.isNote).filter Record.isTrace
      = world.journal.filter Record.isTrace := by
    rw [List.filter_filter]
    apply List.filter_congr
    intro entry _
    cases entry with
    | _ => rfl
  unfold traces World.traces World.chronicle absorb
  rw [List.reverse_append, List.filter_append, List.filter_reverse (l := world.journal.filter _),
    hnotes, List.filter_reverse (l := world.journal)]

theorem told_absorb (story : E) (world : World S)
    : (s.absorb story world).told = s.told ++ world.told := by
  have htraces : (s.absorb story world).world.traces = s.world.traces ++ world.traces :=
    traces_absorb story world
  unfold told
  rw [World.told_eq, htraces, List.filterMap_append, ← World.told_eq, ← World.told_eq]

@[simp]
theorem told_log (level : Level) (message : String) : (s.log level message).told = s.told := by
  exact s.world.told_log level message

end Traces

/--
Whether two sessions have the same story and the same memory, and stories left the same traces in
both.
-/
structure Resembles (s s' : Session S E) : Prop where
  story : s.runner.story = s'.runner.story
  memory : s.world.memory = s'.world.memory
  traces : s.traces = s'.traces

section Resembles

theorem Resembles.told (h : Resembles s s') : s.told = s'.told := by
  exact told_of_traces h.traces

theorem Resembles.refl : Resembles s s := by
  exact ⟨rfl, rfl, rfl⟩

theorem Resembles.trans (h : Resembles s s') (h' : Resembles s' t) : Resembles s t where
  story := h.story.trans h'.story
  memory := h.memory.trans h'.memory
  traces := h.traces.trans h'.traces

theorem Resembles.record (h : Resembles s s') {entry : Record} (hentry : entry.isTrace = false)
    : Resembles (s.record entry) s' where
  story := h.story
  memory := h.memory
  traces := (s.world.traces_record hentry).trans h.traces

theorem Resembles.log (h : Resembles s s') (level : Level) (message : String)
    : Resembles (s.log level message) s' := by
  exact h.record rfl

theorem Resembles.report (h : Resembles s s') (error : RunnerError)
    : Resembles (s.report error) s' := by
  unfold Session.report
  split
  . exact h.log ..
  . exact h.log ..

theorem resembles_mapRunner {f : Runner S E → Runner S E} (hf : (f s.runner).story = s.runner.story)
    : Resembles (s.mapRunner f) s := by
  exact ⟨hf, rfl, rfl⟩

theorem Resembles.enqueue (h : Resembles s s') (event : Event)
    : Resembles (s.enqueue event) s' := by
  have hpending : Resembles (s.mapRunner fun r => { r with pending := r.pending ++ [event] }) s :=
    resembles_mapRunner rfl
  exact (hpending.trans h).record rfl

theorem Resembles.reporting {m : Run S E (Except RunnerError Unit)}
    (h : Resembles (outcome m s).2 s')
    : Resembles (outcome (do Run.reporting (← m)) s).2 s' := by
  exact Run.keeps_reporting (I := (Resembles · s'))
      (fun _ error hresembles => hresembles.report error) h

end Resembles

variable [Engine S E]

theorem Resembles.step (h : Resembles s s') : Resembles s.step.2 s'.step.2 := by
  obtain ⟨hstory, hmemory, htraces⟩ := h
  have hworld : s.world.unwritten = s'.world.unwritten := by
    unfold World.unwritten
    rw [hmemory]
  have habsorb : ∀ (story : E) (world : World S),
      Resembles (s.absorb story world) (s'.absorb story world) := by
    intro story world
    exact ⟨rfl, rfl, by rw [traces_absorb, traces_absorb, htraces]⟩
  unfold Session.step
  rw [hstory, hworld]
  cases s'.runner.story with
  | none => exact ⟨hstory, hmemory, htraces⟩
  | some story =>
    dsimp only
    split
    . split
      . exact habsorb ..
      . next line story' world _ => exact ⟨rfl, rfl, (habsorb story' world).traces⟩
    . split
      . exact ⟨hstory, hmemory, htraces⟩
      . exact ⟨hstory, hmemory, htraces⟩

/--
What a request does before it goes on.
-/
def arranged (s : Session S E) : Operation S E → Session S E
  | .choose index _ | .tryChoose index _ => if s.runner.paused then s else (s.commit index).2
  | .start story _ =>
    if s.runner.story.isNone then s.mapRunner ({ · with story := some story }) else s
  | .reset => (s.touch fun story world => (Engine.reset story world).2).2
  | .rewind => (s.touch fun story world => ((Engine.rewind story).2, world)).2
  | .stop | .tearDown => s.mapRunner ({ · with story := none })
  | .setVariable name value | .trySetVariable name value => (s.trySetVariable name value).2
  | .observe name observer => s.observe name observer
  | .observeAll names observer => s.observeAll names observer
  | .bind function lookaheadSafe => s.bind function lookaheadSafe
  | .load text => (s.load text).2
  | .touch act => (s.touch act).2
  | .remember change => s.remember change
  | _ => s

def goesOn (s : Session S E) : Operation S E → Bool
  | .advance | .tryAdvance => !s.runner.paused
  | .choose index autoAdvance | .tryChoose index autoAdvance =>
    !s.runner.paused && (s.commit index).1.isOk && autoAdvance
  | .start _ autoAdvance => s.runner.story.isNone && autoAdvance
  | _ => false

/--
What a request does apart from announcing and logging.
-/
def outline (s : Session S E) (request : Operation S E) : Session S E :=
  if s.goesOn request then (s.arranged request).step.2 else s.arranged request

section Perform

theorem resembles_tryAdvance (h : Resembles s s')
    : Resembles (outcome (Run.tryAdvance Run.queue) s).2
        (if s.runner.paused then s' else s'.step.2) := by
  have hstep := h.step
  cases hpaused : s.runner.paused with
  | true => simpa [Run.tryAdvance, hpaused] using h
  | false =>
    generalize hended : s.step = ended at hstep
    obtain ⟨_ | event, t⟩ := ended
    . simpa [Run.tryAdvance, hpaused, hended] using hstep
    . simpa [Run.tryAdvance, hpaused, hended, Run.queue] using hstep.enqueue event

theorem resembles_advance
    : Resembles (outcome (Run.tryAdvance Run.queue) s).2 (s.outline .advance) := by
  have hadvance := resembles_tryAdvance (Resembles.refl (s := s))
  unfold outline goesOn arranged
  cases hpaused : s.runner.paused with
  | true => simpa [hpaused] using hadvance
  | false => simpa [hpaused] using hadvance

theorem resembles_tryChoose (index : Nat) (autoAdvance : Bool)
    : Resembles (outcome (Run.tryChoose Run.queue index autoAdvance) s).2
        (s.outline (.choose index autoAdvance)) := by
  unfold outline goesOn arranged
  cases hpaused : s.runner.paused with
  | true => simpa [Run.tryChoose, hpaused] using Resembles.refl
  | false =>
    generalize hended : s.commit index = ended
    obtain ⟨_ | _, t⟩ := ended
    . simpa [Run.tryChoose, hpaused, hended, Except.isOk, Except.toBool] using Resembles.refl
    . have honly : s.OnlyStory (fun _ _ => True) (s.commit index).2 :=
        onlyStory_commit (by simp) (by simp)
      have hpaused' : t.runner.paused = false := by
        rw [hended] at honly
        rw [honly.runner]
        exact hpaused
      rw [Run.tryChoose_taken hpaused hended]
      cases autoAdvance with
      | true =>
        have hadvance := resembles_tryAdvance (Resembles.refl (s := t))
        simpa [Run.goOn, hpaused, hended, hpaused', Except.isOk, Except.toBool] using hadvance
      | false =>
        simpa [Run.goOn, hpaused, hended, Except.isOk, Except.toBool] using Resembles.refl

omit [Engine S E] in
theorem resembles_adopt (story : E)
    : Resembles ((s.adopt story).enqueue .started)
        (s.mapRunner ({ · with story := some story })) := by
  have hcleared : Resembles
      (s.mapRunner fun r => { r.clearContent with story := some story, paused := false })
      (s.mapRunner ({ · with story := some story })) :=
    ⟨rfl, rfl, rfl⟩
  exact ((hcleared.record rfl).log .debug "dialogue started").enqueue .started

theorem resembles_start (story : E) (autoAdvance : Bool)
    : Resembles (outcome (Run.start Run.queue story autoAdvance) s).2
        (s.outline (.start story autoAdvance)) := by
  unfold outline goesOn arranged
  cases hpresent : s.runner.story with
  | none =>
    have hadopt := resembles_adopt (s := s) story
    cases autoAdvance with
    | false => simpa [Run.start, Run.queue, hpresent] using hadopt
    | true =>
      rw [Run.start_queue hpresent]
      exact (resembles_tryAdvance hadopt).reporting
  | some other =>
    rw [Run.start_refused Run.queue story autoAdvance hpresent]
    exact Resembles.refl.report .alreadyActive

theorem resembles_reset : Resembles (outcome (Run.reset Run.queue) s).2 (s.outline .reset) := by
  unfold outline goesOn arranged touch
  cases hpresent : s.runner.story with
  | none => simpa [Run.reset, hpresent] using Resembles.refl
  | some story =>
    generalize hended : Engine.reset story s.world.unwritten = ended
    obtain ⟨_ | _, story', world⟩ := ended
    . simpa [Run.reset, Run.report, hpresent, hended] using Resembles.refl.report _
    . have hcleared : Resembles
          ((s.absorb story' world).mapRunner ({ ·.clearContent with paused := false }))
          (s.absorb story' world) := ⟨rfl, rfl, rfl⟩
      simpa [Run.reset, hpresent, hended, Run.queue] using (hcleared.log _ _).enqueue .restarted

theorem resembles_rewind : Resembles (outcome Run.rewind s).2 (s.outline .rewind) := by
  unfold outline goesOn arranged touch
  cases hpresent : s.runner.story with
  | none => simpa [Run.rewind, hpresent] using Resembles.refl
  | some story =>
    have htraces : (s.absorb (Engine.rewind story).2 s.world.unwritten).traces = s.traces := by
      rw [traces_absorb]
      exact List.append_nil _
    have hcleared : Resembles
        (s.mapRunner fun r => { r.clearContent with story := some (Engine.rewind story).2 })
        (s.absorb (Engine.rewind story).2 s.world.unwritten) :=
      ⟨rfl, rfl, htraces.symm⟩
    simp only [Run.rewind, outcome_bind, outcome_get, outcome_set, hpresent]
    cases (Engine.rewind story).1 with
    | error error => exact hcleared.report (.engine error)
    | ok _ => exact hcleared

theorem resembles_setVariable (name : String) (value : Value)
    : Resembles (s.setVariable name value) (s.trySetVariable name value).2 := by
  unfold Session.setVariable
  split
  . next hnone =>
    rw [Option.isNone_iff_eq_none] at hnone
    unfold trySetVariable
    rw [hnone]
    exact .refl
  . split
    . next heq =>
      rw [heq]
      exact .refl
    . next heq =>
      rw [heq]
      exact Resembles.refl.report _

omit [Engine S E] in
theorem resembles_release : Resembles s.release (s.mapRunner ({ · with story := none })) := by
  have hcleared : Resembles
      (s.mapRunner fun r => { r.clearContent with story := none, paused := false })
      (s.mapRunner ({ · with story := none })) := ⟨rfl, rfl, rfl⟩
  exact (hcleared.record rfl).log .debug "dialogue stopped"

theorem resembles_stop : Resembles (outcome (Run.stop Run.queue) s).2 (s.outline .stop) := by
  cases hpresent : s.runner.story.isSome with
  | true =>
    have hannounce : Resembles (s.announce.mapRunner ({ · with story := none }))
        (s.mapRunner ({ · with story := none })) :=
      ⟨rfl, rfl, ((Resembles.refl.record rfl).enqueue .stopped).traces⟩
    rw [Run.stop_queue hpresent]
    exact resembles_release.trans hannounce
  | false =>
    have hidle : s.runner.story = none := by
      simpa using hpresent
    rw [Run.stop_refused Run.queue hpresent]
    exact ⟨hidle, rfl, rfl⟩

omit [Engine S E] in
theorem resembles_tearDown : Resembles s.tearDown (s.mapRunner ({ · with story := none })) := by
  have hcleared : Resembles (s.mapRunner (·.tearDown)) (s.mapRunner ({ · with story := none })) :=
    ⟨rfl, rfl, rfl⟩
  exact hcleared.record rfl

omit [Engine S E] in
theorem resembles_unsubscribe (token : Token) : Resembles (s.unsubscribe token).2 s := by
  unfold unsubscribe
  split
  . exact (resembles_mapRunner rfl).record rfl
  . exact .refl

theorem resembles_readVariable (name : String) (kind : Kind)
    : Resembles (s.readVariable name kind).2 s := by
  unfold readVariable
  split
  . exact .refl
  . exact Resembles.refl.report _

theorem resembles_save : Resembles s.save.2 s := by
  unfold save
  split
  . exact Resembles.refl.log ..
  . split
    . exact .refl
    . exact Resembles.refl.log ..

theorem resembles_perform (request : Operation S E)
    : Resembles (s.perform request).2 (s.outline request) := by
  rw [perform_eq]
  cases request with
  | advance => exact resembles_advance.reporting
  | tryAdvance => exact resembles_advance
  | choose index autoAdvance => exact (resembles_tryChoose index autoAdvance).reporting
  | tryChoose index autoAdvance => exact resembles_tryChoose index autoAdvance
  | start story autoAdvance => exact resembles_start story autoAdvance
  | reset => exact resembles_reset
  | rewind => exact resembles_rewind
  | pause =>
    simp only [Run.operation, Run.pause, outcome_bind, outcome_get]
    split
    . exact (resembles_mapRunner rfl).enqueue .paused
    . exact .refl
  | resume =>
    simp only [Run.operation, Run.resume, outcome_bind, outcome_get]
    split
    . exact (resembles_mapRunner rfl).enqueue .resumed
    . exact .refl
  | stop => exact resembles_stop
  | tearDown => exact resembles_tearDown
  | unsubscribe token => exact resembles_unsubscribe token
  | setVariable name value => exact resembles_setVariable name value
  | readVariable name kind => exact resembles_readVariable name kind
  | save => exact resembles_save
  | note text => exact Resembles.refl.record rfl
  | log level message => exact Resembles.refl.log level message
  | _ => exact .refl

theorem resembles_aside {move : Move S E} (hrequest : ∀ request, move ≠ .perform request)
    (hrelease : move ≠ .release) : Resembles (s.move move) s := by
  cases move with
  | perform request => exact absurd rfl (hrequest request)
  | release => exact absurd rfl hrelease
  | subscribe kind handler => exact (resembles_mapRunner rfl).record rfl
  | announce => exact (Resembles.refl.record rfl).enqueue .stopped
  | dispatch underway => exact ⟨rfl, rfl, rfl⟩
  | take =>
    cases hpending : s.runner.pending with
    | nil => simpa [Session.move, take, hpending] using Resembles.refl
    | cons event rest =>
      rw [Session.move, take_eq hpending]
      exact (resembles_mapRunner rfl).record rfl
  | enter token event => exact Resembles.refl.record rfl
  | leave token => exact Resembles.refl.record rfl

end Perform

end Session

end Parley
