import Parley.Proofs.Advance
import Parley.Proofs.Script.Reach

/-!
This module contains when a scripted story keeps its word. A story says that there is more as long
as there is any step before the choices or the end. If only steps that show nothing stand there the
story fails to go on, and the choices or the end come one request later; in all other cases there is
a line, or the choices or the end come at once.
-/

namespace Parley

open Script

namespace Script.Story

variable {S : Type} {s : Story S}

def Bound (s : Story S) : Prop :=
  ∀ name arguments target, .call name arguments target ∈ s.upcoming →
    s.functions.contains name = true

/--
Whether a story has steps to take before it comes to rest, all of which show nothing.
-/
def Barren (s : Story S) : Prop :=
  s.reach ≠ [] ∧ s.lines = []

theorem Bound.beyond (h : s.Bound)
    : s.beyond = [] ∨ ∃ options rest, s.beyond = .choices options :: rest := by
  cases hbeyond : s.beyond with
  | nil => exact Or.inl rfl
  | cons step rest =>
    have hstop : s.takes step = false := by
      have hhead := List.head?_dropWhile_not s.takes s.upcoming
      rw [← Story.beyond, hbeyond] at hhead
      simpa using hhead
    have hmem : step ∈ s.upcoming := by
      rw [← reach_append_beyond, hbeyond]
      exact List.mem_append_right _ List.mem_cons_self
    cases step with
    | choices options => exact Or.inr ⟨options, rest, rfl⟩
    | call name arguments target =>
      have hpasses : s.passes (.call name arguments target) = true := h name arguments target hmem
      rw [takes_of_passes hpasses] at hstop
      contradiction
    | _ => contradiction

theorem Bound.canContinue_iff (h : s.Bound) : s.canContinue = true ↔ s.reach ≠ [] := by
  constructor
  . intro hmore hreach
    rw [canContinue_of_reach hreach h.beyond] at hmore
    contradiction
  . intro hreach
    by_contra hhalted
    exact hreach (halts (by simpa using hhalted)).1

theorem Bound.finish (h : s.Bound)
    : s.finish
        =
      if s.trails then
        .error outOfContent
      else
        .ok (arrival s.beyond) := by
  unfold Story.finish
  rcases h.beyond with heq | ⟨options, rest, heq⟩
  . rw [heq]
  . rw [heq]

end Script.Story

namespace Session

variable {S : Type} {s s' : Session S (Faulty (Story S))} {f : Faulty (Story S)}

/--
What one step does in a session with a scripted story, told from the lines that are ahead: it shows
the first one, or there is none and it fails or shows what there is where the story comes to rest.
-/
inductive Nears (s : Session S (Faulty (Story S))) (f : Faulty (Story S))
    : Except RunnerError Event → Session S (Faulty (Story S)) → Prop where
  | line {line : Line} {f' : Faulty (Story S)} {s' : Session S (Faulty (Story S))}
      (ahead : f.story.lines = line :: f'.story.lines) (finish : f'.story.finish = f.story.finish)
      (faults : f'.faults = f.faults)
      (runner : s'.runner = { s.runner with story := some f', line := some line, choices := [] })
      : Nears s f (.ok (.newLine line)) s'
  | fails {error : EngineError} {f' : Faulty (Story S)} {s' : Session S (Faulty (Story S))}
      (ahead : f.story.lines = []) (finish : f.story.finish = .error error)
      (reach : f'.story.reach = []) (beyond : f'.story.beyond = f.story.beyond)
      (faults : f'.faults = f.faults) (runner : s'.runner = { s.runner with story := some f' })
      : Nears s f (.error (.engine error)) s'
  | rests {event : Event} {s' : Session S (Faulty (Story S))} (ahead : f.story.lines = [])
      (reach : f.story.reach = []) (finish : f.story.finish = .ok event)
      (halted : Engine.canContinue f = false)
      (runner : s'.runner = { s.runner with line := none, choices := Engine.choices f })
      : Nears s f (.ok event) s'

theorem Turns.nears {result : Except RunnerError Event} (h : s.Turns f result s')
    (hworks : .continueOne ∉ f.faults)
    : s.Nears f result s' := by
  have hcontinue : Engine.continueOne f s.world.unwritten
      = ((Engine.continueOne f.story s.world.unwritten).1,
          { f with story := (Engine.continueOne f.story s.world.unwritten).2.1 },
          (Engine.continueOne f.story s.world.unwritten).2.2) := by
    change f.attemptIn s.world.unwritten .continueOne Engine.continueOne = _
    rw [Faulty.attemptIn_eq, if_neg hworks]
  have hproceeds : ∀ {result f' world}, Engine.canContinue f = true →
      Engine.continueOne f s.world.unwritten = (result, f', world) →
      f.story.Proceeds result f'.story ∧ f'.faults = f.faults := by
    intro result f' world hmore heq
    have hproceeds := f.story.proceeds hmore s.world.unwritten
    rw [hcontinue, Prod.mk.injEq, Prod.mk.injEq] at heq
    obtain ⟨rfl, rfl, _⟩ := heq
    exact ⟨hproceeds, rfl⟩
  have hhalts : Engine.canContinue f = false → f.story.reach = [] ∧ f.story.lines = [] ∧
      f.story.finish = .ok (arrival f.story.beyond) ∧
      arrival f.story.beyond = offering (Engine.choices f) :=
    f.story.halts
  cases h with
  | line hmore hgoes _ hrunner =>
    obtain ⟨hproceeds, hfaults⟩ := hproceeds hmore hgoes
    cases hproceeds with
    | shows hahead hfinish => exact .line hahead hfinish hfaults hrunner
  | failed hmore hfails _ hrunner =>
    obtain ⟨hproceeds, hfaults⟩ := hproceeds hmore hfails
    cases hproceeds with
    | fails hahead hfinish hreach hbeyond =>
      exact .fails hahead hfinish hreach hbeyond hfaults hrunner
  | choices hhalted hoffered _ hrunner =>
    obtain ⟨hreach, hlines, hfinish, harrival⟩ := hhalts hhalted
    cases hchoices : Engine.choices f with
    | nil => exact absurd hchoices hoffered
    | cons first others =>
      rw [hchoices] at harrival
      rw [harrival] at hfinish
      exact .rests hlines hreach hfinish hhalted (hchoices ▸ hrunner)
  | ended hhalted hunoffered _ hrunner =>
    obtain ⟨hreach, hlines, hfinish, harrival⟩ := hhalts hhalted
    rw [hunoffered] at harrival
    rw [harrival] at hfinish
    rw [← hunoffered] at hrunner
    exact .rests hlines hreach hfinish hhalted hrunner

/--
Whether a story keeps its word in a session: as long as it says that there is more it goes on to a
line, so that no request to go on is answered with a failure, and one request leads from its last
line to the choices or the end.
-/
structure KeepsWord (s : Session S (Faulty (Story S))) (f : Faulty (Story S)) : Prop where
  continues : Engine.canContinue f = true →
    ∃ line, (Engine.continueOne f s.world.unwritten).1 = .ok line
  succeeds : ∀ bound error, (s.request bound .tryAdvance).1 ≠ some (.error error)
  arrives : f.story.lines = [] → ∃ s', s.Turns f (.ok (arrival f.story.beyond)) s'

/--
Whether a story breaks its word in a session: it says that there is more and fails to go on, which
is logged as an error while line and choices stay what they were, and only another request leads to
the choices or the end.
-/
structure BreaksWord (s : Session S (Faulty (Story S))) (f : Faulty (Story S)) : Prop where
  more : Engine.canContinue f = true
  fails : ∀ bound, (s.request bound .tryAdvance).1 = some (.error (.engine outOfContent))
  late : ∃ (s' : Session S (Faulty (Story S))) (f' : Faulty (Story S)),
    s'.history = s.history ∧ s'.runner = { s.runner with story := some f' } ∧
      (∀ bound, s.request bound .advance = (some (), s'.log .error outOfContent.message)) ∧
      ∃ t, (s'.log .error outOfContent.message).Turns f' (.ok (arrival f.story.beyond)) t

theorem turned_ok_ne_error (bound : Nat) (event : Event) (error : RunnerError)
    : (s.turned bound (.ok event)).1 ≠ some (.error error) := by
  unfold turned
  dsimp only
  split
  . simp
  . rw [outcome_bind]
    generalize outcome (Run.settle bound) (s.enqueue event) = ended
    obtain ⟨_ | _, _⟩ := ended
    . simp
    . simp

theorem request_advance_failed {bound : Nat} {error : RunnerError}
    (hfails : s.request bound .tryAdvance = (some (.error error), s'))
    : s.request bound .advance = (some (), s'.report error) := by
  have htried : outcome (Run.tryAdvance (Run.emitWith (Run.drain bound))) s
      = (some (.error error), s') := hfails
  change outcome (Run.advance (Run.emitWith (Run.drain bound))) s = _
  simp [Run.advance, htried, Run.reporting, Run.report]

section Word

theorem Nears.arrives {result : Except RunnerError Event} (h : s.Nears f result s')
    (hlines : f.story.lines = []) (hfinish : f.story.finish = .ok (arrival f.story.beyond))
    : result = .ok (arrival f.story.beyond) := by
  cases h with
  | line hahead => simp [hlines] at hahead
  | fails _ hfails => simp [hfinish] at hfails
  | rests _ _ hevent =>
    rw [hfinish] at hevent
    cases hevent
    rfl

theorem exists_turns (hstory : s.runner.story = some f)
    (hworks : .continueOne ∉ f.faults) (hhalted : Engine.canContinue f = false)
    : ∃ s', s.Turns f (.ok (arrival f.story.beyond)) s' := by
  obtain ⟨_, hlines, hfinish, _⟩ := Story.halts (s := f.story) hhalted
  have hturns := turns_step hstory
  rw [(hturns.nears hworks).arrives hlines hfinish] at hturns
  exact ⟨_, hturns⟩

theorem Nears.barren {error : RunnerError} (h : s.Nears f (.error error) s')
    (hbound : f.story.Bound)
    : f.story.Barren ∧ error = .engine outOfContent ∧ ∃ f',
        s'.runner = { s.runner with story := some f' } ∧
        f'.story.reach = [] ∧ f'.story.beyond = f.story.beyond ∧ f'.faults = f.faults := by
  cases h with
  | fails hahead hfinish hreach hbeyond hfaults hrunner =>
    rw [hbound.finish] at hfinish
    split at hfinish
    . next htrails =>
      rw [Story.trails_eq hahead] at htrails
      refine ⟨⟨by simpa using htrails, hahead⟩, ?_, _, hrunner, hreach, hbeyond, hfaults⟩
      cases hfinish
      rfl
    . contradiction

theorem Nears.failed {result : Except RunnerError Event} (h : s.Nears f result s')
    (hbarren : f.story.Barren)
    : ∃ error, result = .error error := by
  cases h with
  | fails => exact ⟨_, rfl⟩
  | line hahead => simp [hbarren.2] at hahead
  | rests _ hreach => exact absurd hreach hbarren.1

variable (hstory : s.runner.story = some f) (hpaused : s.runner.paused = false)
    (hworks : .continueOne ∉ f.faults) (hbound : f.story.Bound)

include hstory hpaused hworks hbound

theorem keepsWord_of_fertile (hfertile : ¬f.story.Barren) : s.KeepsWord f := by
  have hmore : Engine.canContinue f = true ↔ f.story.reach ≠ [] := hbound.canContinue_iff
  have hturns := turns_step hstory
  have hrequest := request_step hpaused
  generalize s.step = ended at hturns hrequest
  obtain ⟨result, s'⟩ := ended
  have hnears := hturns.nears hworks
  constructor
  . intro hcontinues
    cases hturns with
    | failed => exact absurd (hnears.barren hbound).1 hfertile
    | line _ hgoes => exact ⟨_, congrArg (·.1) hgoes⟩
    | choices hhalted => simp [hcontinues] at hhalted
    | ended hhalted => simp [hcontinues] at hhalted
  . intro bound error
    rw [hrequest]
    cases result with
    | error other => exact absurd (hnears.barren hbound).1 hfertile
    | ok event => exact turned_ok_ne_error bound event error
  . intro hlines
    have hreach : f.story.reach = [] := by
      by_contra hreach
      exact hfertile ⟨hreach, hlines⟩
    apply exists_turns hstory hworks
    simpa [hreach] using hmore

theorem breaksWord_of_barren (hbarren : f.story.Barren) : s.BreaksWord f := by
  have hturns := turns_step hstory
  have hrequest := request_step hpaused
  generalize s.step = ended at hturns hrequest
  obtain ⟨result, s'⟩ := ended
  have hnears := hturns.nears hworks
  obtain ⟨error, rfl⟩ := hnears.failed hbarren
  obtain ⟨_, rfl, f', hrunner, hreach, hbeyond, hfaults⟩ := hnears.barren hbound
  have hhalted : Engine.canContinue f' = false :=
    Story.canContinue_of_reach hreach (hbeyond ▸ hbound.beyond)
  have hstory' : s'.runner.story = some f' := by rw [hrunner]
  constructor
  . exact hbound.canContinue_iff.mpr hbarren.1
  . intro bound
    rw [hrequest]
    rfl
  . refine ⟨s', f', hturns.history, hrunner, ?_, ?_⟩
    . intro bound
      exact request_advance_failed (hrequest bound)
    . rw [← hbeyond]
      exact exists_turns (s := s'.log .error outOfContent.message) hstory'
          (hfaults ▸ hworks) hhalted

theorem keepsWord_iff : (s.KeepsWord f ↔ ¬f.story.Barren) ∧ (f.story.Barren → s.BreaksWord f) := by
  have hbreaks := breaksWord_of_barren hstory hpaused hworks hbound
  refine ⟨⟨?_, keepsWord_of_fertile hstory hpaused hworks hbound⟩, hbreaks⟩
  intro hkeeps hbarren
  exact hkeeps.succeeds 0 _ ((hbreaks hbarren).fails 0)

end Word

def crossroads : Story Unit :=
  .new .empty
    [[.call "f" [] (some "x"), .line ⟨"one", []⟩, .report "two" .warning, .choices [("left", 0)]]]

def oracle : Function Unit where
  name := "f"
  parameters := none
  body _ memory := (some (.int 1), memory)

def approach : Program Unit (Faulty (Story Unit)) :=
  Routine.program do
    Routine.perform (.start ⟨crossroads, []⟩ false)
    Routine.perform (.bind oracle false)

theorem keepsWord_crossroads
    : let s := ((Session.new {} ()).run 2 approach).2
      let s' := (s.request 2 .advance).2
      (∃ f, s.runner.story = some f ∧ f.story.lines = [⟨"one", []⟩] ∧ s.KeepsWord f) ∧
        ∃ f', s'.runner.story = some f' ∧ f'.story.Barren ∧ s'.BreaksWord f' := by
  intro s s'
  obtain ⟨f, hstory⟩ : ∃ f, s.runner.story = some f := ⟨_, rfl⟩
  obtain ⟨f', hstory'⟩ : ∃ f', s'.runner.story = some f' := ⟨_, rfl⟩
  have hbound : f.story.Bound ∧ f'.story.Bound := by
    cases hstory
    cases hstory'
    refine ⟨?_, ?_⟩
    . rintro name arguments target (_ | ⟨_, _ | ⟨_, _ | ⟨_, _ | ⟨_, h⟩⟩⟩⟩)
      . rfl
      . cases h
    . rintro name arguments target (_ | ⟨_, _ | ⟨_, h⟩⟩)
      cases h
  have hlines : f.story.lines = [⟨"one", []⟩] ∧ f'.story.Barren := by
    cases hstory
    cases hstory'
    refine ⟨rfl, by decide, rfl⟩
  obtain ⟨hkeeps, _⟩ := keepsWord_iff hstory rfl (by cases hstory; simp) hbound.1
  obtain ⟨_, hbreaks⟩ := keepsWord_iff hstory' rfl (by cases hstory'; simp) hbound.2
  refine ⟨⟨f, hstory, hlines.1, hkeeps.mpr ?_⟩, f', hstory', hlines.2, hbreaks hlines.2⟩
  rintro ⟨_, hnone⟩
  rw [hlines.1] at hnone
  contradiction

def strolling : Program Unit (Faulty (Story Unit)) :=
  Routine.program do
    let steps : List Step := [.line ⟨"one", []⟩, .set "x" (.int 1), .choices [("left", 0)]]
    Routine.perform (.start ⟨.new .empty [steps], []⟩ true)

-- A story that says that there is more, where an assignment stands before its choices, and then
-- fails to go on.
theorem not_keepsWord_strolling
    : let s := ((Session.new {} ()).run 2 strolling).2
      ∃ f, s.runner.story = some f ∧ s.runner.status = .active ∧ f.faults = [] ∧ f.story.Bound ∧
        Engine.canContinue f = true ∧
        (Engine.continueOne f s.world.unwritten).1 = .error outOfContent ∧
        (s.request 2 .tryAdvance).1 = some (.error (.engine outOfContent)) ∧
        (s.request 2 .advance).2.runner.choices = [] ∧ ¬s.KeepsWord f := by
  intro s
  have hfails : (s.request 2 .tryAdvance).1 = some (.error (.engine outOfContent)) := rfl
  refine ⟨_, rfl, rfl, rfl, ?_, rfl, rfl, hfails, rfl, ?_⟩
  . rintro name arguments target (_ | ⟨_, _ | ⟨_, h⟩⟩)
    cases h
  . intro hkeeps
    exact hkeeps.succeeds 2 _ hfails

end Session

end Parley
