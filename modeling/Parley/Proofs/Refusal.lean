import Parley.Faulty
import Parley.Proofs.Choices

/-!
This module contains what requests leave behind that come to nothing. A request that is refused
changes nothing but the log, and one that fails in the story changes nothing but the story, whose
methods alone can say what they left of it. The way back to the start is the exception: it takes
line and choices away first.
-/

namespace Parley

namespace Engine

variable {S E : Type} [Engine S E]

/--
The failure of a method with the story that it left, if the method failed.
-/
def failed? {α : Type} : Except EngineError α → E → Option (EngineError × E)
  | .error error, story => some (error, story)
  | .ok _, _ => none

def stalled? (story : E) (world : World S) : Option (EngineError × E) :=
  if canContinue story then
    let (result, story, _) := continueOne story world.unwritten
    failed? result story
  else
    none

/--
The failure to take a choice that is offered or, if asked to, to go on from there.
-/
def missed? (story : E) (world : World S) (index : Nat) (autoAdvance : Bool)
    : Option (EngineError × E) :=
  if index < (choices story).length then
    match choose story index with
    | (.error error, story) => some (error, story)
    | (.ok _, story) => if autoAdvance then stalled? story world else none
  else
    none

end Engine

namespace Session

variable {S E : Type} {s s' t : Session S E}

section Logged

/--
Whether nothing has happened but that messages were logged.
-/
structure Logged (s s' : Session S E) : Prop where
  runner : s'.runner = s.runner
  memory : s'.world.memory = s.world.memory
  journal : ∃ messages : List (Level × String),
    s'.world.journal = messages.map (fun (level, text) => .log level text) ++ s.world.journal

theorem Logged.refl : Logged s s where
  runner := rfl
  memory := rfl
  journal := ⟨[], rfl⟩

theorem Logged.trans (h : Logged s s') (h' : Logged s' t) : Logged s t where
  runner := h'.runner.trans h.runner
  memory := h'.memory.trans h.memory
  journal := by
    obtain ⟨messages, heq⟩ := h.journal
    obtain ⟨messages', heq'⟩ := h'.journal
    refine ⟨messages' ++ messages, ?_⟩
    rw [heq', heq, List.map_append, List.append_assoc]

theorem logged_log (level : Level) (message : String) : Logged s (s.log level message) where
  runner := rfl
  memory := rfl
  journal := ⟨[(level, message)], rfl⟩

theorem logged_report (error : RunnerError) : Logged s (s.report error) := by
  unfold report
  split
  . apply logged_log
  . apply logged_log

theorem Logged.history (h : Logged s s') : s'.history = s.history := by
  obtain ⟨messages, heq⟩ := h.journal
  have hnotes : (messages.map fun (level, text) => Record.log level text).filter
      (!·.isNote) = [] := by
    rw [List.filter_eq_nil_iff]
    intro entry hmem
    obtain ⟨_, _, rfl⟩ := List.mem_map.mp hmem
    simp [Record.isNote]
  unfold Session.history
  rw [heq, List.filter_append, hnotes, List.nil_append]

end Logged

variable [Engine S E]

def declares (s : Session S E) (name : String) : Bool :=
  s.runner.story.any (Engine.hasVariable · name)

def Refuses (s : Session S E) : Operation S E → Prop
  | .advance | .tryAdvance | .pause => s.runner.status ≠ .active
  | .resume => s.runner.status ≠ .paused
  | .choose index _ | .tryChoose index _ =>
    s.runner.status ≠ .active ∨ s.offered.length ≤ index
  | .start .. => s.runner.status ≠ .idle
  | .reset | .rewind | .stop | .bind .. | .save | .load _ | .touch _ => s.runner.status = .idle
  | .setVariable name _ | .trySetVariable name _ | .observe name _ => s.declares name = false
  | .observeAll names _ => ∀ name ∈ names, s.declares name = false
  | .readVariable name kind | .tryReadVariable name kind =>
    ∃ error, s.tryReadVariable name kind = .error error
  | .variableValue name => s.variableValue name = none
  | .unsubscribe token => ∀ kind, s.runner.registry.holds kind token = false
  | .tearDown | .look | .recall | .remember _ | .note _ | .log .. => False

/--
The failure in the story that a request meets, with the story that it leaves.
-/
def failure? (s : Session S E) (request : Operation S E) : Option (EngineError × E) :=
  s.runner.story.bind fun story =>
    match request with
    | .advance | .tryAdvance =>
      if s.runner.paused then none else Engine.stalled? story s.world
    | .choose index autoAdvance | .tryChoose index autoAdvance =>
      if s.runner.paused then none else Engine.missed? story s.world index autoAdvance
    | .reset =>
      let (result, story, _) := Engine.reset story s.world.unwritten
      Engine.failed? result story
    | .rewind =>
      let (result, story) := Engine.rewind story
      Engine.failed? result story
    | .setVariable name value | .trySetVariable name value =>
      if Engine.hasVariable story name then
        let (result, story, _) := Engine.setVariable story name value s.world.unwritten
        Engine.failed? result story
      else
        none
    | .observe name observer =>
      if Engine.hasVariable story name then
        let (result, story) := Engine.observe story name observer
        Engine.failed? result story
      else
        none
    | .bind function lookaheadSafe =>
      let (result, story) := Engine.bind story function lookaheadSafe
      Engine.failed? result story
    | .save => Engine.failed? (Engine.save story) story
    | .load text =>
      let (result, story) := Engine.load story text
      Engine.failed? result story
    | _ => none

section Refused

theorem trySetVariable_refused {name : String} (value : Value) (hunknown : s.declares name = false)
    : ∃ error, s.trySetVariable name value = (.error error, s) := by
  cases hstory : s.runner.story with
  | none => exact ⟨.noActiveStory, by simp [trySetVariable, hstory]⟩
  | some story =>
    have hname : Engine.hasVariable story name = false := by
      simpa [declares, hstory] using hunknown
    exact ⟨.unknownVariable name, by simp [trySetVariable, hstory, hname]⟩

theorem setVariable_refused {name : String} (value : Value) (hunknown : s.declares name = false)
    : Logged s (s.setVariable name value) := by
  obtain ⟨error, hset⟩ := trySetVariable_refused value hunknown
  unfold setVariable
  rw [hset]
  split
  . exact Logged.refl
  . exact logged_report error

theorem observe_refused {name : String} (observer : Observer) (hunknown : s.declares name = false)
    : Logged s (s.observe name observer) := by
  unfold observe
  split
  . exact Logged.refl
  . next story hstory =>
    have hname : Engine.hasVariable story name = false := by
      simpa [declares, hstory] using hunknown
    rw [hname]
    exact logged_log _ _

theorem observeAll_refused {names : List String} (observer : Observer)
    (hunknown : ∀ name ∈ names, s.declares name = false)
    : Logged s (s.observeAll names observer) := by
  unfold observeAll
  induction names generalizing s with
  | nil => exact Logged.refl
  | cons name names ih =>
    rw [List.forall_mem_cons] at hunknown
    have hlogged := observe_refused observer hunknown.1
    apply hlogged.trans
    apply ih
    intro other hmem
    unfold declares
    rw [hlogged.runner]
    exact hunknown.2 other hmem

omit [Engine S E] in
theorem unsubscribe_refused {token : Token}
    (hunknown : ∀ kind, s.runner.registry.holds kind token = false)
    : s.unsubscribe token = (false, s) := by
  have hnone : EventKind.all.find? (s.runner.registry.holds · token) = none := by
    simp [hunknown]
  simp [unsubscribe, Registry.unsubscribe, hnone]

end Refused

section Failed

variable {story story' : E} {error : EngineError}

/--
Whether nothing but notes were written, and of the runner nothing but its story has changed.
-/
structure Strands (s : Session S E) (story : E) (s' : Session S E) : Prop where
  runner : s'.runner = { s.runner with story := some story }
  history : s'.history = s.history

omit [Engine S E] in
theorem strands_absorb (story : E) (world : World S) : s.Strands story (s.absorb story world) where
  runner := rfl
  history := history_absorb story world

omit [Engine S E] in
theorem strands_withStory (story : E)
    : s.Strands story (s.mapRunner ({ · with story := some story })) where
  runner := rfl
  history := rfl

omit [Engine S E] in
theorem strands_self (hstory : s.runner.story = some story) : s.Strands story s where
  runner := by
    rw [← hstory]
  history := rfl

omit [Engine S E] in
theorem Strands.log (h : s.Strands story s') (level : Level) (message : String)
    : s.Strands story (s'.log level message) where
  runner := h.runner
  history := (history_log level message).trans h.history

omit [Engine S E] in
theorem failed?_eq_some {α : Type} {result : Except EngineError α}
    (hfailed : Engine.failed? result story = some (error, story'))
    : result = .error error ∧ story = story' := by
  cases result with
  | ok _ => simp [Engine.failed?] at hfailed
  | error _ => simpa [Engine.failed?] using hfailed

omit [Engine S E] in
theorem of_running {paused : Bool} {failure : Option (EngineError × E)}
    (hfailed : (if paused then none else failure) = some (error, story'))
    : paused = false ∧ failure = some (error, story') := by
  cases paused with
  | true => contradiction
  | false => exact ⟨rfl, hfailed⟩

omit [Engine S E] in
theorem of_known {known : Bool} {failure : Option (EngineError × E)}
    (hfailed : (if known then failure else none) = some (error, story'))
    : known = true ∧ failure = some (error, story') := by
  cases known with
  | true => exact ⟨rfl, hfailed⟩
  | false => contradiction

theorem step_stalled (hstory : s.runner.story = some story)
    (hstalled : Engine.stalled? story s.world = some (error, story'))
    : ∃ s', s.step = (.error (.engine error), s') ∧ s.Strands story' s' := by
  unfold Engine.stalled? at hstalled
  split at hstalled
  . next hcontinue =>
    cases hended : Engine.continueOne story s.world.unwritten with
    | mk result rest =>
      obtain ⟨left, world⟩ := rest
      rw [hended] at hstalled
      obtain ⟨rfl, rfl⟩ := failed?_eq_some hstalled
      exact ⟨_, by simp [step, hstory, hcontinue, hended], strands_absorb left world⟩
  . contradiction

theorem trySetVariable_failed {name : String} {value : Value} (hstory : s.runner.story = some story)
    (hknown : Engine.hasVariable story name = true)
    (hfailed : Engine.failed? (Engine.setVariable story name value s.world.unwritten).1
      (Engine.setVariable story name value s.world.unwritten).2.1 = some (error, story'))
    : (s.trySetVariable name value).1 = .error (.engine error) ∧
        s.Strands story' (s.trySetVariable name value).2 := by
  obtain ⟨hresult, rfl⟩ := failed?_eq_some hfailed
  simp only [trySetVariable, hstory, hknown, if_true, hresult]
  exact ⟨rfl, strands_absorb _ _⟩

theorem setVariable_failed {name : String} {value : Value} (hstory : s.runner.story = some story)
    (hset : (s.trySetVariable name value).1 = .error (.engine error) ∧
        s.Strands story' (s.trySetVariable name value).2)
    : s.Strands story' (s.setVariable name value) := by
  obtain ⟨hresult, hstrands⟩ := hset
  unfold setVariable
  rw [hstory]
  split
  . next hnone => simp at hnone
  . split
    . next heq => simp [heq] at hresult
    . next heq =>
      rw [heq] at hresult hstrands
      injection hresult with hresult
      rw [hresult]
      exact hstrands.log .error error.message

theorem observe_failed {name : String} {observer : Observer} (hstory : s.runner.story = some story)
    (hknown : Engine.hasVariable story name = true)
    (hfailed : Engine.failed? (Engine.observe story name observer).1
      (Engine.observe story name observer).2 = some (error, story'))
    : s.Strands story' (s.observe name observer) := by
  obtain ⟨hresult, hleft⟩ := failed?_eq_some hfailed
  unfold observe
  simp only [hstory, hknown, if_true]
  split
  . next heq => simp [heq] at hresult
  . next heq =>
    rw [heq] at hleft
    rw [← hleft]
    exact (strands_withStory _).log _ _

theorem bind_failed {function : Function S} {lookaheadSafe : Bool}
    (hstory : s.runner.story = some story)
    (hfailed : Engine.failed? (Engine.bind story function lookaheadSafe).1
      (Engine.bind story function lookaheadSafe).2 = some (error, story'))
    : s.Strands story' (s.bind function lookaheadSafe) := by
  obtain ⟨hresult, hleft⟩ := failed?_eq_some hfailed
  unfold Session.bind
  simp only [hstory]
  split
  . next heq => simp [heq] at hresult
  . next heq =>
    rw [heq] at hleft
    rw [← hleft]
    exact (strands_withStory _).log _ _

theorem save_failed (hstory : s.runner.story = some story)
    (hfailed : Engine.failed? (Engine.save story) story = some (error, story'))
    : s.Strands story' s.save.2 := by
  obtain ⟨hresult, rfl⟩ := failed?_eq_some hfailed
  simp only [save, hstory, hresult]
  exact (strands_self hstory).log _ _

theorem load_failed {text : String} (hstory : s.runner.story = some story)
    (hfailed : Engine.failed? (Engine.load story text).1 (Engine.load story text).2
      = some (error, story'))
    : s.Strands story' (s.load text).2 := by
  obtain ⟨_, rfl⟩ := failed?_eq_some hfailed
  simp only [load, hstory]
  exact strands_withStory _

end Failed

end Session

namespace Run

open Session

variable {S E α : Type} {s : Session S E}

/--
Whether a computation that may emit events emits none, and ends in a session of a certain kind.
-/
def Silent (s : Session S E) (m : (Event → Run S E Unit) → Run S E α) (post : Session S E → Prop)
    : Prop :=
  ∃ reply s', (∀ emit, outcome (m emit) s = (some reply, s')) ∧ post s'

theorem Silent.reporting {m : (Event → Run S E Unit) → Run S E (Except RunnerError Unit)}
    {post post' : Session S E → Prop} (h : Silent s m post)
    (hpost : ∀ s', post s' → post' s') (hreport : ∀ s' error, post s' → post' (s'.report error))
    : Silent s (fun emit => do reporting (← m emit)) post' := by
  obtain ⟨reply, s', hm, hs'⟩ := h
  cases reply with
  | ok _ =>
    refine ⟨(), s', ?_, hpost s' hs'⟩
    intro emit
    simp [hm, Run.reporting]
  | error error =>
    refine ⟨(), s'.report error, ?_, hreport s' error hs'⟩
    intro emit
    simp [hm, Run.reporting, report]

variable [Engine S E]

section Refused

theorem tryAdvance_refused (hinactive : s.runner.status ≠ .active)
    : Silent s (tryAdvance ·) (· = s) := by
  cases hpaused : s.runner.paused with
  | true =>
    refine ⟨.ok (), s, ?_, rfl⟩
    intro emit
    simp [tryAdvance, hpaused]
  | false =>
    have hidle : s.runner.story = none := by
      simpa [Runner.status_eq_active, hpaused] using hinactive
    refine ⟨.error .noActiveStory, s, ?_, rfl⟩
    intro emit
    simp [tryAdvance, step, hpaused, hidle]

theorem tryChoose_refused {index : Nat} (autoAdvance : Bool)
    (hrefused : s.runner.status ≠ .active ∨ s.offered.length ≤ index)
    : Silent s (tryChoose · index autoAdvance) (· = s) := by
  cases hpaused : s.runner.paused with
  | true =>
    refine ⟨.ok (), s, ?_, rfl⟩
    intro emit
    simp [tryChoose, hpaused]
  | false =>
    have hcommit : ∃ error, s.commit index = (.error error, s) := by
      cases hstory : s.runner.story with
      | none => exact ⟨.noActiveStory, by simp [commit, hstory]⟩
      | some story =>
        have hfew : (Engine.choices story).length ≤ index := by
          simpa [Runner.status_eq_active, hstory, hpaused, offered] using hrefused
        by_cases hnone : (Engine.choices story).length = 0
        . exact ⟨.noActiveChoices, by simp [commit, hstory, List.length_eq_zero_iff.mp hnone]⟩
        . exact ⟨.choiceOutOfRange index (Engine.choices story).length,
            by simp [commit, hstory, hnone, hfew]⟩
    obtain ⟨error, hcommit⟩ := hcommit
    refine ⟨.error error, s, ?_, rfl⟩
    intro emit
    simp [tryChoose, hpaused, hcommit]

theorem operation_refused {request : Operation S E} (hrefused : s.Refuses request)
    : Silent s (operation · request) (Logged s) := by
  cases request with
  | advance =>
    apply (tryAdvance_refused hrefused).reporting
    . rintro _ rfl
      exact Logged.refl
    . rintro _ error rfl
      exact logged_report error
  | tryAdvance =>
    obtain ⟨reply, s', hm, rfl⟩ := tryAdvance_refused hrefused
    exact ⟨reply, s', hm, Logged.refl⟩
  | choose index autoAdvance =>
    apply (tryChoose_refused autoAdvance hrefused).reporting
    . rintro _ rfl
      exact Logged.refl
    . rintro _ error rfl
      exact logged_report error
  | tryChoose index autoAdvance =>
    obtain ⟨reply, s', hm, rfl⟩ := tryChoose_refused autoAdvance hrefused
    exact ⟨reply, s', hm, Logged.refl⟩
  | start story autoAdvance =>
    obtain ⟨other, hother⟩ : ∃ other, s.runner.story = some other := by
      simpa [Refuses, Runner.status_eq_idle, Option.ne_none_iff_exists'] using hrefused
    refine ⟨(), _, ?_, logged_report .alreadyActive⟩
    intro emit
    exact start_refused emit story autoAdvance hother
  | reset | rewind | stop =>
    have hidle : s.runner.story = none := Runner.status_eq_idle.mp hrefused
    refine ⟨(), s, ?_, Logged.refl⟩
    intro emit
    simp [operation, reset, rewind, stop, hidle]
  | pause | resume =>
    refine ⟨(), s, ?_, Logged.refl⟩
    intro emit
    simp_all [operation, pause, resume, Refuses]
  | bind function lookaheadSafe =>
    have hidle : s.runner.story = none := Runner.status_eq_idle.mp hrefused
    refine ⟨(), s.bind function lookaheadSafe, fun _ => rfl, ?_⟩
    simp only [Session.bind, hidle]
    exact Logged.refl
  | save =>
    have hidle : s.runner.story = none := Runner.status_eq_idle.mp hrefused
    refine ⟨s.save.1, s.save.2, fun _ => rfl, ?_⟩
    simp only [save, hidle]
    exact logged_log _ _
  | load text =>
    have hidle : s.runner.story = none := Runner.status_eq_idle.mp hrefused
    refine ⟨(s.load text).1, (s.load text).2, fun _ => rfl, ?_⟩
    simp only [load, hidle]
    exact logged_log _ _
  | touch act =>
    have hidle : s.runner.story = none := Runner.status_eq_idle.mp hrefused
    refine ⟨(s.touch act).1, (s.touch act).2, fun _ => rfl, ?_⟩
    simp only [touch, hidle]
    exact Logged.refl
  | setVariable name value => exact ⟨(), _, fun _ => rfl, setVariable_refused value hrefused⟩
  | trySetVariable name value =>
    obtain ⟨error, hset⟩ := trySetVariable_refused value hrefused
    refine ⟨.error error, s, ?_, Logged.refl⟩
    intro emit
    exact congrArg (fun ended => (some ended.1, ended.2)) hset
  | readVariable name kind =>
    obtain ⟨error, hread⟩ := hrefused
    refine ⟨kind.fallback, s.report error, ?_, logged_report error⟩
    intro emit
    have hdone : s.readVariable name kind = (kind.fallback, s.report error) := by
      simp [readVariable, hread]
    exact congrArg (fun ended => (some ended.1, ended.2)) hdone
  | observe name observer => exact ⟨(), _, fun _ => rfl, observe_refused observer hrefused⟩
  | observeAll names observer => exact ⟨(), _, fun _ => rfl, observeAll_refused observer hrefused⟩
  | unsubscribe token =>
    refine ⟨false, s, ?_, Logged.refl⟩
    intro emit
    exact congrArg (fun ended => (some ended.1, ended.2)) (unsubscribe_refused hrefused)
  | tryReadVariable | variableValue => exact ⟨_, s, fun _ => rfl, Logged.refl⟩
  | _ => exact absurd hrefused id

end Refused

section Failed

variable {story story' : E} {error : EngineError}

theorem tryAdvance_stalled (hstory : s.runner.story = some story)
    (hpaused : s.runner.paused = false)
    (hstalled : Engine.stalled? story s.world = some (error, story'))
    : Silent s (tryAdvance ·) (s.Strands story') := by
  obtain ⟨s', hstep, hstrands⟩ := step_stalled hstory hstalled
  refine ⟨.error (.engine error), s', ?_, hstrands⟩
  intro emit
  simp [tryAdvance, hpaused, hstep]

theorem tryChoose_missed {index : Nat} {autoAdvance : Bool} (hstory : s.runner.story = some story)
    (hpaused : s.runner.paused = false)
    (hmissed : Engine.missed? story s.world index autoAdvance = some (error, story'))
    : Silent s (tryChoose · index autoAdvance) (s.Strands story') := by
  unfold Engine.missed? at hmissed
  split at hmissed
  . next hoffered =>
    have hcommit : s.commit index
        = ((Engine.choose story index).1.mapError .engine,
            s.mapRunner ({ · with story := some (Engine.choose story index).2 })) := by
      have hsome : (Engine.choices story).length ≠ 0 := by omega
      have hin : ¬(Engine.choices story).length ≤ index := by omega
      simp only [commit, hstory, hsome, hin, if_false]
    cases hchosen : Engine.choose story index with
    | mk result chosen =>
      rw [hchosen] at hmissed hcommit
      cases result with
      | error failure =>
        simp only [Option.some.injEq, Prod.mk.injEq] at hmissed
        obtain ⟨rfl, rfl⟩ := hmissed
        refine ⟨.error (.engine failure), _, ?_, strands_withStory chosen⟩
        intro emit
        simp [tryChoose, hpaused, hcommit, mapError_error]
      | ok _ =>
        cases autoAdvance with
        | false => contradiction
        | true =>
          have hgo :=
            tryAdvance_stalled (s := s.mapRunner ({ · with story := some chosen })) rfl hpaused
              hmissed
          obtain ⟨reply, s', hgo, hstrands⟩ := hgo
          refine ⟨reply, s', ?_, ⟨hstrands.runner, hstrands.history⟩⟩
          intro emit
          rw [tryChoose_taken hpaused hcommit]
          exact hgo emit
  . contradiction

omit [Engine S E] in
theorem Silent.reporting_strands {m : (Event → Run S E Unit) → Run S E (Except RunnerError Unit)}
    (h : Silent s m (s.Strands story'))
    : Silent s (fun emit => do Run.reporting (← m emit)) (s.Strands story') := by
  apply h.reporting (fun _ => id)
  intro s' error hstrands
  have hlogged := logged_report (s := s') error
  exact ⟨hlogged.runner.trans hstrands.runner, hlogged.history.trans hstrands.history⟩

theorem reset_failed (hstory : s.runner.story = some story)
    (hfailed : Engine.failed? (Engine.reset story s.world.unwritten).1
      (Engine.reset story s.world.unwritten).2.1 = some (error, story'))
    : Silent s (operation · .reset) (s.Strands story') := by
  cases hended : Engine.reset story s.world.unwritten with
  | mk result rest =>
    obtain ⟨left, world⟩ := rest
    rw [hended] at hfailed
    obtain ⟨rfl, rfl⟩ := failed?_eq_some hfailed
    refine ⟨(), _, ?_, (strands_absorb left world).log .error (RunnerError.engine error).message⟩
    intro emit
    simp [operation, reset, Run.report, Session.report, hstory, hended]

theorem operation_failed {request : Operation S E}
    (hfailed : s.failure? request = some (error, story')) (hrewind : request ≠ .rewind)
    : Silent s (operation · request) (s.Strands story') := by
  unfold failure? at hfailed
  obtain ⟨story, hstory, hfailed⟩ := Option.bind_eq_some_iff.mp hfailed
  cases request with
  | advance =>
    obtain ⟨hpaused, hstalled⟩ := of_running hfailed
    exact (tryAdvance_stalled hstory hpaused hstalled).reporting_strands
  | tryAdvance =>
    obtain ⟨hpaused, hstalled⟩ := of_running hfailed
    exact tryAdvance_stalled hstory hpaused hstalled
  | choose index autoAdvance =>
    obtain ⟨hpaused, hmissed⟩ := of_running hfailed
    exact (tryChoose_missed hstory hpaused hmissed).reporting_strands
  | tryChoose index autoAdvance =>
    obtain ⟨hpaused, hmissed⟩ := of_running hfailed
    exact tryChoose_missed hstory hpaused hmissed
  | reset => exact reset_failed hstory hfailed
  | rewind => exact absurd rfl hrewind
  | setVariable name value =>
    obtain ⟨hknown, hfailed⟩ := of_known hfailed
    have hset := trySetVariable_failed hstory hknown hfailed
    exact ⟨(), _, fun _ => rfl, setVariable_failed hstory hset⟩
  | trySetVariable name value =>
    obtain ⟨hknown, hfailed⟩ := of_known hfailed
    exact ⟨_, _, fun _ => rfl, (trySetVariable_failed hstory hknown hfailed).2⟩
  | observe name observer =>
    obtain ⟨hknown, hfailed⟩ := of_known hfailed
    exact ⟨(), _, fun _ => rfl, observe_failed hstory hknown hfailed⟩
  | bind function lookaheadSafe => exact ⟨(), _, fun _ => rfl, bind_failed hstory hfailed⟩
  | save => exact ⟨_, _, fun _ => rfl, save_failed hstory hfailed⟩
  | load text => exact ⟨_, _, fun _ => rfl, load_failed hstory hfailed⟩
  | _ => contradiction

theorem rewind_failed (hfailed : s.failure? .rewind = some (error, story'))
    : Silent s (operation · .rewind) fun s' =>
        s'.runner = { s.runner.clearContent with story := some story' } ∧
          s'.history = s.history := by
  unfold failure? at hfailed
  obtain ⟨story, hstory, hfailed⟩ := Option.bind_eq_some_iff.mp hfailed
  cases hended : Engine.rewind story with
  | mk result left =>
    rw [hended] at hfailed
    obtain ⟨rfl, rfl⟩ := failed?_eq_some hfailed
    let cleared := s.mapRunner fun r => { r.clearContent with story := some left }
    refine ⟨(), cleared.report (.engine error), ?_, rfl, history_log .error error.message⟩
    intro emit
    simp [operation, rewind, Run.reporting, report, mapError_error, hstory, hended, cleared]

end Failed

theorem load_undecoded {s : Session S (Script.Story S)} {story : Script.Story S} {text : String}
    {fault : Json.Fault} (hstory : s.runner.story = some story)
    (hfault : Script.State.ofText? text = .error fault)
    : Silent s (operation · (.load text)) (· = s) := by
  have hload : s.load text = (.error (.runtime fault.message), s) := by
    simp only [load, hstory, Engine.load, Script.Story.load, hfault, mapRunner]
    rw [← hstory]
  refine ⟨(s.load text).1, (s.load text).2, fun _ => rfl, ?_⟩
  rw [hload]

end Run

namespace Session

-- What is said of the computation of a request holds wherever the request is made, from outside or
-- out of a handler: these differ only in what emitting an event does.
theorem failed_request_spares {S E : Type} [Engine S E] (s : Session S E)
    : (∀ request, s.Refuses request → Run.Silent s (Run.operation · request) s.Logged) ∧
        (∀ request error story, s.failure? request = some (error, story) → request ≠ .rewind →
          Run.Silent s (Run.operation · request) (s.Strands story)) ∧
        (∀ error story, s.failure? .rewind = some (error, story) →
          Run.Silent s (Run.operation · .rewind) fun s' =>
            s'.runner = { s.runner.clearContent with story := some story } ∧
              s'.history = s.history) ∧
        ∀ (s : Session S (Script.Story S)) story text fault, s.runner.story = some story →
          Script.State.ofText? text = .error fault →
            Run.Silent s (Run.operation · (.load text)) (· = s) := by
  refine ⟨?_, ?_, ?_, ?_⟩
  . intro request hrefused
    exact Run.operation_refused hrefused
  . intro request error story hfailed hrewind
    exact Run.operation_failed hfailed hrewind
  . intro error story hfailed
    exact Run.rewind_failed hfailed
  . intro s story text fault hstory hfault
    exact Run.load_undecoded hstory hfault

/--
A session that shows the choice of a story all of whose methods fail.
-/
def stubborn : Session Unit (Faulty (Script.Story Unit)) :=
  let story : Faulty (Script.Story Unit) :=
    ⟨.new .empty [[.choices [("left", 0)]]], Method.all⟩
  ((Session.new {} ()).adopt story).step.2

-- There is one choice to take, and taking it fails. Only going back to the start takes it away.
theorem stubborn_spares
    : stubborn.runner.choices = [⟨0, "left", []⟩] ∧
        Run.Silent stubborn (Run.operation · (.choose 1 false)) stubborn.Logged ∧
        (∃ error story, stubborn.failure? (.choose 0 false) = some (error, story) ∧
          Run.Silent stubborn (Run.operation · (.choose 0 false)) (stubborn.Strands story)) ∧
        (∃ error story, stubborn.failure? .rewind = some (error, story) ∧
          Run.Silent stubborn (Run.operation · .rewind) fun s =>
            (s.runner = { stubborn.runner.clearContent with story := some story } ∧
              s.history = stubborn.history) ∧ s.runner.choices = []) ∧
        let s := (Session.new {} ()).adopt (Script.Story.new .empty [] : Script.Story Unit)
        Run.Silent s (Run.operation · (.load "not a save")) (· = s) := by
  obtain ⟨hrefused, hfailed, hrewound, hload⟩ := failed_request_spares stubborn
  refine ⟨rfl, hrefused _ (Or.inr (Nat.le_refl 1)), ⟨_, _, rfl, ?_⟩, ⟨_, _, rfl, ?_⟩, ?_⟩
  . exact hfailed _ _ _ rfl (by simp)
  . obtain ⟨reply, s, hs, hcleared⟩ := hrewound _ _ rfl
    refine ⟨reply, s, hs, hcleared, ?_⟩
    rw [hcleared.1]
    rfl
  . exact hload _ _ _ _ rfl rfl

end Session
end Parley
