import Mathlib.Data.List.TakeWhile
import Parley.Proofs.Faulty
import Parley.Proofs.Script.Steps

/-!
This module contains what the steps of a scripted story do: they store values, call functions, tell
the host messages and show lines. A continuation does what the steps that it takes do, each in its
turn and nothing else, and the story stands behind exactly these steps when it ends, whether it
shows a line or fails.
-/

namespace Parley

namespace Script

inductive Effect where
  /-- A value was stored in a variable. -/
  | assigned (name : String) (value : Value)
  /-- A function was called and returned a value, or none. -/
  | called (function : String) (arguments : List Value) (result : Option Value)
  /-- The host was told a message. -/
  | reported (message : String) (severity : Severity)
  /-- A line was returned. -/
  | shown (line : Line)
deriving DecidableEq

def Effect.stored : Option String → Option Value → List Effect
  | some name, some value => [.assigned name value]
  | _, _ => []

/--
The effects that a step can have. What a function returns is open.
-/
inductive Step.Has : Step → List Effect → Prop where
  | line (line : Line) : Has (.line line) [.shown line]
  | set (name : String) (value : Value) : Has (.set name value) [.assigned name value]
  | call (function : String) (arguments : List Value) (target : Option String)
      (result : Option Value)
      : Has (.call function arguments target)
          (.called function arguments result :: Effect.stored target result)
  | report (message : String) (severity : Severity)
      : Has (.report message severity) [.reported message severity]

/--
Whether these are the effects of the steps, in order and of each step once.
-/
def Performs (steps : List Step) (effects : List Effect) : Prop :=
  ∃ parts, List.Forall₂ Step.Has steps parts ∧ effects = parts.flatten

section Performs

variable {steps steps' : List Step} {effects effects' : List Effect}

theorem performs_nil : Performs [] [] := by
  exact ⟨[], .nil, rfl⟩

theorem Performs.append (h : Performs steps effects) (h' : Performs steps' effects')
    : Performs (steps ++ steps') (effects ++ effects') := by
  obtain ⟨parts, hparts, rfl⟩ := h
  obtain ⟨parts', hparts', rfl⟩ := h'
  exact ⟨parts ++ parts', List.rel_append hparts hparts', List.flatten_append.symm⟩

theorem performs_one {step : Step} (h : step.Has effects) : Performs [step] effects := by
  exact ⟨[effects], .cons h .nil, by simp⟩

end Performs

inductive Effect.Happens {S : Type} (s : Story S) (w : World S)
    : Effect → Story S × World S → Prop where
  | assigned (name : String) (value : Value)
      : Happens s w (.assigned name value) (s.assign name value w)
  | called {name : String} {f : Function S} {lookaheadSafe : Bool}
      (bound : s.functions.get? name = some (f, lookaheadSafe)) (arguments : List Value)
      : Happens s w (.called name arguments (f.call arguments w).1) (s, (f.call arguments w).2)
  | reported (message : String) (severity : Severity)
      : Happens s w (.reported message severity) (s, w.log (Story.levelOf severity) message)
  | shown (line : Line) : Happens s w (.shown line) (s, w)

/--
Whether several effects happen one after the other, and nothing else.
-/
inductive Happen {S : Type} : Story S × World S → List Effect → Story S × World S → Prop where
  | nil (now : Story S × World S) : Happen now [] now
  | cons {s : Story S} {w : World S} {effect : Effect}
      {effects : List Effect} {next later : Story S × World S} (first : effect.Happens s w next)
      (rest : Happen next effects later) : Happen (s, w) (effect :: effects) later

def Story.at {S : Type} (s : Story S) (step : Nat) : Story S :=
  { s with state := { s.state with step } }

section Happen

variable {S : Type} {s s' : Story S} {w w' : World S} {effects effects' : List Effect}

theorem happen_one {effect : Effect} {later : Story S × World S} (h : effect.Happens s w later)
    : Happen (s, w) [effect] later := by
  exact .cons h (.nil later)

theorem Happen.append {now next later : Story S × World S} (h : Happen now effects next)
    (h' : Happen next effects' later) : Happen now (effects ++ effects') later := by
  induction h with
  | nil now => exact h'
  | cons hfirst _ ih => exact .cons hfirst (ih h')

theorem Happen.at {now later : Story S × World S} (h : Happen now effects later) (step : Nat)
    : Happen (now.1.at step, now.2) effects (later.1.at step, later.2) := by
  induction h with
  | nil now => exact .nil _
  | @cons s w effect effects next later hfirst _ ih =>
    refine .cons ?_ ih
    cases hfirst with
    | assigned name value => exact .assigned name value
    | @called name f lookaheadSafe hbound arguments =>
      have hbound : (s.at step).functions.get? name = some (f, lookaheadSafe) := hbound
      exact .called hbound arguments
    | reported message severity => exact .reported message severity
    | shown line => exact .shown line

-- Of the story nothing changes but its variables.
theorem Happen.frame {now later : Story S × World S} (h : Happen now effects later)
    : ∃ values, later.1 = { now.1 with state := { now.1.state with values } } := by
  induction h with
  | nil now => exact ⟨now.1.state.values, rfl⟩
  | cons hfirst _ ih =>
    obtain ⟨values, hlater⟩ := ih
    refine ⟨values, ?_⟩
    rw [hlater]
    cases hfirst with
    | _ => rfl

end Happen

namespace Story

variable {S : Type} {s : Story S}

def deed (s : Story S) (w : World S) : Step → List Effect
  | .line line => [.shown line]
  | .choices _ => []
  | .set name value => [.assigned name value]
  | .call name arguments target =>
    match s.functions.get? name with
    | none => []
    | some (function, _) =>
      let result := (function.call arguments w).1
      .called name arguments result :: Effect.stored target result
  | .report message severity => [.reported message severity]

def deeds (s : Story S) (w : World S) : List Step → List Effect
  | [] => []
  | step :: rest =>
    s.deed w step ++ if s.passes step then (s.pass w step).1.deeds (s.pass w step).2 rest else []

section Passed

variable {step : Step} {steps : List Step}

/--
Whether a step that a story takes has these effects, and they are all that happens until the story
stands at the next step.
-/
structure TakesStep (s : Story S) (w : World S) (step : Step) (effects : List Effect)
    (later : Story S × World S)
    : Prop where
  has : step.Has effects
  happen : Happen (s, w) effects (later.1.at s.state.step, later.2)
  step : later.1.state.step = s.state.step + 1

theorem takesStep_pass (hpasses : s.passes step = true) (w : World S)
    : s.TakesStep w step (s.deed w step) (s.pass w step) := by
  cases step with
  | line line => contradiction
  | choices options => contradiction
  | set name value => exact ⟨.set name value, happen_one (.assigned name value), rfl⟩
  | report message severity =>
    exact ⟨.report message severity, happen_one (.reported message severity), rfl⟩
  | call name arguments target =>
    cases hbound : s.functions.get? name with
    | none => simp [passes, Table.contains, hbound] at hpasses
    | some bound =>
      obtain ⟨f, lookaheadSafe⟩ := bound
      have hcall := Effect.Happens.called (w := w) hbound arguments
      have hhas := Step.Has.call name arguments target (f.call arguments w).1
      simp only [deed, pass, hbound]
      generalize f.call arguments w = called at *
      obtain ⟨result, w'⟩ := called
      cases target with
      | none => exact ⟨hhas, happen_one hcall, rfl⟩
      | some name =>
        cases result with
        | none => exact ⟨hhas, happen_one hcall, rfl⟩
        | some value => exact ⟨hhas, .cons hcall (happen_one (.assigned name value)), rfl⟩

/--
Whether steps that a story takes have these effects, and they are all that happens until the story
stands behind the steps.
-/
structure TakesAll (s : Story S) (w : World S) (steps : List Step) (effects : List Effect)
    (later : Story S × World S) : Prop where
  performs : Performs steps effects
  happen : Happen (s, w) effects (later.1.at s.state.step, later.2)
  step : later.1.state.step = s.state.step + steps.length

theorem takesAll_nil (w : World S) : s.TakesAll w [] [] (s, w) := by
  exact ⟨performs_nil, .nil _, rfl⟩

theorem TakesStep.cons {w : World S} {next later : Story S × World S}
    {effects effects' : List Effect} (h : s.TakesStep w step effects next)
    (h' : next.1.TakesAll next.2 steps effects' later)
    : s.TakesAll w (step :: steps) (effects ++ effects') later where
  performs := (performs_one h.has).append h'.performs
  happen := h.happen.append (h'.happen.at s.state.step)
  step := by
    rw [h'.step, h.step, List.length_cons]
    omega

theorem TakesAll.append {w : World S} {steps' : List Step} {next later : Story S × World S}
    {effects effects' : List Effect} (h : s.TakesAll w steps effects next)
    (h' : next.1.TakesAll next.2 steps' effects' later)
    : s.TakesAll w (steps ++ steps') (effects ++ effects') later where
  performs := h.performs.append h'.performs
  happen := h.happen.append (h'.happen.at s.state.step)
  step := by
    rw [h'.step, h.step, List.length_append]
    omega

theorem takesAll_line (w : World S) (line : Line)
    : s.TakesAll w [.line line] [.shown line] (s.next, w) := by
  exact ⟨performs_one (.line line), happen_one (.shown line), rfl⟩

theorem forall_passes_pass (hpasses : ∀ step ∈ steps, s.passes step = true) (w : World S)
    (step : Step)
    : ∀ other ∈ steps, (s.pass w step).1.passes other = true := by
  intro other hmem
  rw [passes_pass]
  exact hpasses other hmem

theorem takesAll_passAll (hpasses : ∀ step ∈ steps, s.passes step = true) (w : World S)
    : s.TakesAll w steps (s.deeds w steps) (s.passAll w steps) := by
  induction steps generalizing s w with
  | nil => exact takesAll_nil w
  | cons step steps ih =>
    rw [List.forall_mem_cons] at hpasses
    have hrest := ih (forall_passes_pass hpasses.2 w step) (s.pass w step).2
    rw [deeds, if_pos hpasses.1]
    exact (takesStep_pass hpasses.1 w).cons hrest

theorem deeds_append (hpasses : ∀ step ∈ steps, s.passes step = true) (w : World S)
    (rest : List Step)
    : s.deeds w (steps ++ rest)
        =
      s.deeds w steps ++ (s.passAll w steps).1.deeds (s.passAll w steps).2 rest := by
  induction steps generalizing s w with
  | nil => rfl
  | cons step steps ih =>
    rw [List.forall_mem_cons] at hpasses
    have hrest := ih (forall_passes_pass hpasses.2 w step) (s.pass w step).2
    rw [List.cons_append, deeds, deeds, if_pos hpasses.1, if_pos hpasses.1, hrest,
      List.append_assoc, passAll]

end Passed

/--
How a continuation comes out that took these steps of a story. It passes steps that show nothing up
to one that stops it: a line, which it takes and returns, a call of a function that is not bound, or
a choice or the end of the knot.
-/
inductive Stops (s : Story S) : List Step → Except EngineError Line → Prop where
  | line {passed rest : List Step} {line : Line} (passes : ∀ step ∈ passed, s.passes step = true)
      (upcoming : s.upcoming = passed ++ .line line :: rest)
      : Stops s (passed ++ [.line line]) (.ok line)
  | unbound {passed rest : List Step} {name : String} {arguments : List Value}
      {target : Option String} (passes : ∀ step ∈ passed, s.passes step = true)
      (upcoming : s.upcoming = passed ++ .call name arguments target :: rest)
      (unbound : s.functions.get? name = none)
      : Stops s passed (.error (.runtime ("function `" ++ name ++ "` is not bound")))
  | choices {passed rest : List Step} {options : List (String × Nat)}
      (passes : ∀ step ∈ passed, s.passes step = true)
      (upcoming : s.upcoming = passed ++ .choices options :: rest)
      : Stops s passed (.error (.runtime "can't continue, there is no more content"))
  | spent (passes : ∀ step ∈ s.upcoming, s.passes step = true)
      : Stops s s.upcoming (.error (.runtime "can't continue, there is no more content"))

/--
Whether a continuation takes steps up to one that stops it, and does what these steps do.
-/
def Continues (s : Story S) (w : World S) (effects : List Effect)
    (ended : Except EngineError Line × Story S × World S) : Prop :=
  ∃ taken, s.Stops taken ended.1 ∧ s.TakesAll w taken effects ended.2

-- What is passed is the longest part of the upcoming steps of which each is passed. The step after
-- it decides.
theorem continues (s : Story S) (w : World S)
    : s.Continues w (s.deeds w s.upcoming) (Engine.continueOne s w) := by
  obtain ⟨passed, hpassed⟩ : ∃ passed, passed = s.upcoming.takeWhile s.passes := ⟨_, rfl⟩
  obtain ⟨rest, hrest⟩ : ∃ rest, rest = s.upcoming.dropWhile s.passes := ⟨_, rfl⟩
  have hupcoming : s.upcoming = passed ++ rest := by
    rw [hpassed, hrest, List.takeWhile_append_dropWhile]
  have hpasses : ∀ step ∈ passed, s.passes step = true := by
    intro step hmem
    rw [hpassed] at hmem
    exact List.mem_takeWhile_imp hmem
  have hstops : ∀ step more, rest = step :: more → s.passes step = false := by
    intro step more heq
    have hhead := List.head?_dropWhile_not s.passes s.upcoming
    rw [← hrest, heq] at hhead
    simpa using hhead
  have hcontinue : Engine.continueOne s w
      = (s.passAll w passed).1.play (s.passAll w passed).2 rest := by
    change s.play w s.upcoming = _
    rw [hupcoming, play_append hpasses]
  have hdeeds : s.deeds w s.upcoming
      = s.deeds w passed ++ (s.passAll w passed).1.deeds (s.passAll w passed).2 rest := by
    rw [hupcoming, deeds_append hpasses]
  have htakes := takesAll_passAll hpasses w
  have hfunctions := functions_passAll (s := s) w passed
  generalize s.passAll w passed = later at hcontinue hdeeds htakes hfunctions
  rw [hcontinue, hdeeds]
  cases rest with
  | nil =>
    rw [List.append_nil] at hupcoming
    rw [← hupcoming] at hpasses htakes
    refine ⟨s.upcoming, .spent hpasses, ?_⟩
    rw [deeds, List.append_nil, ← hupcoming]
    exact htakes
  | cons step rest =>
    have hstop := hstops step rest rfl
    cases step with
    | line line => exact ⟨_, .line hpasses hupcoming, htakes.append (takesAll_line _ line)⟩
    | choices options =>
      have hnone : later.1.deeds later.2 (.choices options :: rest) = [] := rfl
      rw [hnone, List.append_nil]
      exact ⟨passed, .choices hpasses hupcoming, htakes⟩
    | set name value => contradiction
    | report message severity => contradiction
    | call name arguments target =>
      have hunbound : s.functions.get? name = none := by
        simpa [passes, Table.contains] using hstop
      have hplay : later.1.play later.2 (.call name arguments target :: rest)
          = (.error (.runtime ("function `" ++ name ++ "` is not bound")), later) := by
        rw [play, hfunctions, hunbound]
      have hnone : later.1.deeds later.2 (.call name arguments target :: rest) = [] := by
        simp [deeds, deed, Story.passes, Table.contains, hfunctions, hunbound]
      rw [hplay, hnone, List.append_nil]
      exact ⟨passed, .unbound hpasses hupcoming hunbound, htakes⟩

theorem Stops.upcoming {taken : List Step} {result : Except EngineError Line}
    (h : s.Stops taken result)
    : ∃ rest, s.upcoming = taken ++ rest := by
  cases h with
  | @line passed rest line _ hupcoming =>
    exact ⟨rest, by rw [hupcoming, List.append_assoc, List.singleton_append]⟩
  | unbound _ hupcoming _ => exact ⟨_, hupcoming⟩
  | choices _ hupcoming => exact ⟨_, hupcoming⟩
  | spent _ => exact ⟨[], (List.append_nil _).symm⟩

/--
Whether a story has gone on in its knot, and these are the effects of the steps from where it stood
to where it stands.
-/
structure Covers (s : Story S) (effects : List Effect) (s' : Story S) : Prop where
  knots : s'.knots = s.knots
  knot : s'.state.knot = s.state.knot
  steps : ∃ steps, s.upcoming = steps ++ s'.upcoming ∧ s'.state.step = s.state.step + steps.length ∧
    Performs steps effects

section Covers

variable {s' s'' : Story S} {effects effects' : List Effect}

def place (s : Story S) : List (List Step) × Nat × Nat :=
  (s.knots, s.state.knot, s.state.step)

theorem covers_place (hplace : s'.place = s.place) : s.Covers [] s' := by
  simp only [place, Prod.mk.injEq] at hplace
  obtain ⟨hknots, hknot, hstep⟩ := hplace
  refine ⟨hknots, hknot, [], ?_, hstep, performs_nil⟩
  rw [List.nil_append, upcoming, upcoming, hknots, hknot, hstep]

theorem Covers.trans (h : s.Covers effects s') (h' : s'.Covers effects' s'')
    : s.Covers (effects ++ effects') s'' := by
  obtain ⟨steps, hupcoming, hstep, hperforms⟩ := h.steps
  obtain ⟨steps', hupcoming', hstep', hperforms'⟩ := h'.steps
  refine ⟨h'.knots.trans h.knots, h'.knot.trans h.knot, steps ++ steps', ?_, ?_,
    hperforms.append hperforms'⟩
  . rw [hupcoming, hupcoming', List.append_assoc]
  . rw [hstep', hstep, List.length_append]
    omega

theorem TakesAll.upcoming {w : World S} {taken rest : List Step} {later : Story S × World S}
    (h : s.TakesAll w taken effects later) (hupcoming : s.upcoming = taken ++ rest)
    : later.1.upcoming = rest := by
  obtain ⟨values, hframe⟩ := h.happen.frame
  have hknots : later.1.knots = s.knots := congrArg (·.knots) hframe
  have hknot : later.1.state.knot = s.state.knot := congrArg (·.state.knot) hframe
  have hdrop : later.1.upcoming = s.upcoming.drop taken.length := by
    rw [Story.upcoming, Story.upcoming, hknots, hknot, h.step, List.drop_drop]
  rw [hdrop, hupcoming, List.drop_left]

theorem Continues.covers {w : World S} {ended : Except EngineError Line × Story S × World S}
    (h : s.Continues w effects ended) : s.Covers effects ended.2.1 := by
  obtain ⟨taken, hstops, htakes⟩ := h
  obtain ⟨rest, hrest⟩ := hstops.upcoming
  obtain ⟨values, hframe⟩ := htakes.happen.frame
  have hknots : ended.2.1.knots = s.knots := congrArg (·.knots) hframe
  have hknot : ended.2.1.state.knot = s.state.knot := congrArg (·.state.knot) hframe
  refine ⟨hknots, hknot, taken, ?_, htakes.step, htakes.performs⟩
  rw [htakes.upcoming hrest, hrest]

end Covers

end Story

end Script

namespace Faulty

open Script

variable {S : Type} {f : Faulty (Story S)}

def deeds (f : Faulty (Story S)) (w : World S) : List Effect :=
  if .continueOne ∈ f.faults then [] else f.story.deeds w f.story.upcoming

inductive Continues (f : Faulty (Story S)) (w : World S)
    : List Effect → Except EngineError Line × Faulty (Story S) × World S → Prop where
  | injected (fault : .continueOne ∈ f.faults)
      : Continues f w [] (.error (injected .continueOne), f, w)
  | played (works : .continueOne ∉ f.faults) {effects : List Effect}
      {result : Except EngineError Line} {story : Story S} {w' : World S}
      (continues : f.story.Continues w effects (result, story, w'))
      : Continues f w effects (result, { f with story }, w')

theorem continues (f : Faulty (Story S)) (w : World S)
    : f.Continues w (f.deeds w) (Engine.continueOne f w) := by
  change f.Continues w (f.deeds w) (f.attemptIn w .continueOne Engine.continueOne)
  rw [deeds, attemptIn_eq]
  split
  . next hfault => exact .injected hfault
  . next hworks => exact .played hworks (Story.continues f.story w)

theorem Continues.covers {w : World S} {effects : List Effect}
    {ended : Except EngineError Line × Faulty (Story S) × World S} (h : f.Continues w effects ended)
    : f.story.Covers effects ended.2.1.story := by
  cases h with
  | injected _ => exact Story.covers_place rfl
  | played _ hcontinues => exact hcontinues.covers

end Faulty

end Parley
