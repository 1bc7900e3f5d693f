import Parley.Proofs.Script.Effects

/-!
This module contains how far a scripted story gets when it goes on again and again: which steps it
takes before it comes to rest, which lines it shows on the way, and how that ends.
-/

namespace Parley.Script

def Step.line? : Step → Option Line
  | .line shown => some shown
  | _ => none

/--
What is announced of the choices at which a story comes to rest: that it ended, if there are none.
-/
def offering : List Choice → Event
  | [] => .ended
  | choices => .newChoices choices

def arrival : List Step → Event
  | .choices options :: _ => offering (Choice.numbered (options.map (·.1)))
  | _ => .ended

/--
The failure of a story that finds no line where it said that there is more.
-/
def outOfContent : EngineError :=
  .runtime "can't continue, there is no more content"

namespace Story

variable {S : Type} {s s' : Story S}

/--
Whether a story takes a step when it goes on. It takes all but choices and calls of functions that
are not bound.
-/
def takes (s : Story S) (step : Step) : Bool :=
  s.passes step || step.line?.isSome

/--
The steps that a story takes before it comes to rest.
-/
def reach (s : Story S) : List Step :=
  s.upcoming.takeWhile s.takes

/--
The step at which a story comes to rest, if its knot does not end there, and the steps behind it.
-/
def beyond (s : Story S) : List Step :=
  s.upcoming.dropWhile s.takes

def lines (s : Story S) : List Line :=
  s.reach.filterMap Step.line?

/--
Whether the last step that a story takes before it comes to rest shows nothing.
-/
def trails (s : Story S) : Bool :=
  s.reach.getLast?.any (·.line?.isNone)

/--
How a story ends that goes on behind the last line: a function that it calls is not bound, there are
only steps that show nothing, or it shows what there is where it comes to rest.
-/
def finish (s : Story S) : Except EngineError Event :=
  match s.beyond with
  | .call name _ _ :: _ => .error (.runtime ("function `" ++ name ++ "` is not bound"))
  | rest => if s.trails then .error outOfContent else .ok (arrival rest)

theorem reach_append_beyond : s.reach ++ s.beyond = s.upcoming := by
  exact List.takeWhile_append_dropWhile

theorem takes_of_passes {step : Step} (hpasses : s.passes step = true) : s.takes step = true := by
  rw [takes, hpasses, Bool.true_or]

theorem takes_unbound {name : String} (hunbound : s.functions.get? name = none)
    (arguments : List Value) (target : Option String)
    : s.takes (.call name arguments target) = false := by
  simp [takes, passes, Table.contains, hunbound, Step.line?]

theorem takes_congr (hfunctions : s'.functions = s.functions) : s'.takes = s.takes := by
  funext step
  cases step with
  | call name arguments target => rw [takes, takes, passes, passes, hfunctions]
  | _ => rfl

theorem line?_of_passes {step : Step} (hpasses : s.passes step = true) : step.line? = none := by
  cases step with
  | line line => contradiction
  | _ => rfl

theorem lines_of_passes {steps : List Step} (hpasses : ∀ step ∈ steps, s.passes step = true)
    : steps.filterMap Step.line? = [] := by
  rw [List.filterMap_eq_nil_iff]
  intro step hmem
  exact line?_of_passes (hpasses step hmem)

theorem trails_eq (hlines : s.lines = []) : s.trails = !s.reach.isEmpty := by
  unfold trails
  cases hlast : s.reach.getLast? with
  | none =>
    rw [List.getLast?_eq_none_iff.mp hlast]
    rfl
  | some step =>
    have hmem := List.mem_of_getLast? hlast
    have hnone : step.line? = none := List.filterMap_eq_nil_iff.mp hlines step hmem
    have hne : s.reach.isEmpty = false := List.isEmpty_eq_false_iff.mpr (List.ne_nil_of_mem hmem)
    simp [hnone, hne]

section Taken

theorem reach_taken {taken rest : List Step} (htaken : ∀ step ∈ taken, s.takes step = true)
    (hupcoming : s.upcoming = taken ++ rest)
    : s.reach = taken ++ rest.takeWhile s.takes ∧ s.beyond = rest.dropWhile s.takes := by
  unfold reach beyond
  rw [hupcoming, List.takeWhile_append_of_pos htaken, List.dropWhile_append_of_pos htaken]
  exact ⟨rfl, rfl⟩

-- The story comes to rest behind the steps that it takes.
theorem rests_behind {taken rest : List Step} (htaken : ∀ step ∈ taken, s.takes step = true)
    (hupcoming : s.upcoming = taken ++ rest) (hstop : ∀ step ∈ rest.head?, s.takes step = false)
    : s.reach = taken ∧ s.beyond = rest := by
  obtain ⟨hreach, hbeyond⟩ := reach_taken htaken hupcoming
  rw [hreach, hbeyond]
  cases rest with
  | nil => simp
  | cons step rest =>
    have hstop : s.takes step = false := hstop step rfl
    simp [hstop]

theorem Stops.takes {taken : List Step} {result : Except EngineError Line}
    (h : s.Stops taken result)
    : ∀ step ∈ taken, s.takes step = true := by
  have hpassed : ∀ {steps : List Step}, (∀ step ∈ steps, s.passes step = true) →
      ∀ step ∈ steps, s.takes step = true :=
        fun hpasses step hmem => takes_of_passes (hpasses step hmem)
  cases h with
  | line hpasses _ =>
    rw [List.forall_mem_append, List.forall_mem_singleton]
    exact ⟨hpassed hpasses, rfl⟩
  | unbound hpasses _ _ => exact hpassed hpasses
  | choices hpasses _ => exact hpassed hpasses
  | spent hpasses => exact hpassed hpasses

/--
How a continuation comes out that takes these steps, and how far the story then still gets.
-/
structure Leads (s : Story S) (taken : List Step) (result : Except EngineError Line) (s' : Story S)
    : Prop where
  stops : s.Stops taken result
  reach : s.reach = taken ++ s'.reach
  beyond : s'.beyond = s.beyond

theorem leads (s : Story S) (w : World S)
    : ∃ taken, s.Leads taken (Engine.continueOne s w).1 (Engine.continueOne s w).2.1 ∧
        s.TakesAll w taken (s.deeds w s.upcoming) (Engine.continueOne s w).2 := by
  obtain ⟨taken, hstops, htakes⟩ := s.continues w
  obtain ⟨_, hframe⟩ := htakes.happen.frame
  have hfunctions : (Engine.continueOne s w).2.1.functions = s.functions :=
    congrArg (·.functions) hframe
  obtain ⟨rest, hupcoming⟩ := hstops.upcoming
  obtain ⟨hreach, hbeyond⟩ := reach_taken hstops.takes hupcoming
  refine ⟨taken, ⟨hstops, ?_, ?_⟩, htakes⟩
  . rw [hreach, Story.reach, htakes.upcoming hupcoming, takes_congr hfunctions]
  . rw [hbeyond, Story.beyond, htakes.upcoming hupcoming, takes_congr hfunctions]

end Taken

section Continuation

theorem canContinue_of_reach (hreach : s.reach = [])
    (hbeyond : s.beyond = [] ∨ ∃ options rest, s.beyond = .choices options :: rest)
    : s.canContinue = false := by
  have hupcoming := reach_append_beyond (s := s)
  rw [hreach, List.nil_append] at hupcoming
  unfold canContinue
  rcases hbeyond with heq | ⟨options, rest, heq⟩
  . simp [← hupcoming, heq]
  . simp [← hupcoming, heq]

-- A story that has something to continue with and finds no line fails, since it has taken at least
-- one step.
theorem finish_of_spent (hmore : s.canContinue = true) (hlines : s.lines = [])
    (hbeyond : s.beyond = [] ∨ ∃ options rest, s.beyond = .choices options :: rest)
    : s.finish = .error outOfContent := by
  have hreach : s.reach ≠ [] := by
    intro hreach
    rw [canContinue_of_reach hreach hbeyond] at hmore
    contradiction
  have htrails : s.trails = true := by
    rw [trails_eq hlines]
    simpa using hreach
  unfold finish
  rcases hbeyond with heq | ⟨options, rest, heq⟩
  . simp [heq, htrails]
  . simp [heq, htrails]

/--
What one continuation does to a story that has something to continue with: it shows the next line,
or it fails with what the story ends with once there is none.
-/
inductive Proceeds (s : Story S) : Except EngineError Line → Story S → Prop where
  | shows {line : Line} {s' : Story S} (ahead : s.lines = line :: s'.lines)
      (finish : s'.finish = s.finish) (beyond : s'.beyond = s.beyond) : Proceeds s (.ok line) s'
  | fails {error : EngineError} {s' : Story S} (ahead : s.lines = [])
      (finish : s.finish = .error error) (reach : s'.reach = []) (beyond : s'.beyond = s.beyond)
      : Proceeds s (.error error) s'

-- What follows the last line stays the same when a line is shown.
theorem finish_of_shown {passed : List Step} {line : Line}
    (hreach : s.reach = passed ++ [.line line] ++ s'.reach) (hbeyond : s'.beyond = s.beyond)
    : s'.finish = s.finish := by
  have htrails : s'.trails = s.trails := by
    unfold trails
    rw [hreach, List.getLast?_append]
    cases s'.reach.getLast? with
    | none => simp [Step.line?]
    | some step => rfl
  unfold finish
  rw [hbeyond, htrails]

theorem Leads.fails {taken rest : List Step} {error : EngineError}
    (h : s.Leads taken (.error error) s') (hpasses : ∀ step ∈ taken, s.passes step = true)
    (hupcoming : s.upcoming = taken ++ rest) (hstop : ∀ step ∈ rest.head?, s.takes step = false)
    (hfinish : s.beyond = rest → s.lines = [] → s.finish = .error error)
    : s.Proceeds (.error error) s' := by
  obtain ⟨hreach, hbeyond⟩ := rests_behind h.stops.takes hupcoming hstop
  have hlines : s.lines = [] := by
    rw [lines, hreach]
    exact lines_of_passes hpasses
  refine .fails hlines (hfinish hbeyond hlines) ?_ h.beyond
  exact List.append_right_eq_self.mp (h.reach.symm.trans hreach)

theorem Leads.proceeds {taken : List Step} {result : Except EngineError Line}
    (hmore : s.canContinue = true) (h : s.Leads taken result s') : s.Proceeds result s' := by
  cases h.stops with
  | @line passed rest line hpasses hupcoming =>
    refine .shows ?_ (finish_of_shown h.reach h.beyond) h.beyond
    rw [lines, h.reach, List.filterMap_append, List.filterMap_append, lines_of_passes hpasses]
    rfl
  | unbound hpasses hupcoming hunbound =>
    refine h.fails hpasses hupcoming (by simp [takes_unbound hunbound]) ?_
    intro hbeyond _
    rw [finish, hbeyond]
  | choices hpasses hupcoming =>
    refine h.fails hpasses hupcoming (by simp [takes, passes, Step.line?]) ?_
    exact fun hbeyond hlines => finish_of_spent hmore hlines (Or.inr ⟨_, _, hbeyond⟩)
  | spent hpasses =>
    refine h.fails hpasses (List.append_nil _).symm (by simp) ?_
    exact fun hbeyond hlines => finish_of_spent hmore hlines (Or.inl hbeyond)

theorem proceeds (hmore : s.canContinue = true) (w : World S)
    : s.Proceeds (Engine.continueOne s w).1 (Engine.continueOne s w).2.1 := by
  obtain ⟨_, hleads, _⟩ := s.leads w
  exact hleads.proceeds hmore

theorem halts (hhalted : s.canContinue = false)
    : s.reach = [] ∧ s.lines = [] ∧ s.finish = .ok (arrival s.beyond) ∧
        arrival s.beyond = offering (Engine.choices s) := by
  have hupcoming : s.upcoming = [] ∨ ∃ options rest, s.upcoming = .choices options :: rest := by
    unfold canContinue at hhalted
    split at hhalted
    . next heq => exact Or.inl heq
    . next options rest heq => exact Or.inr ⟨options, rest, heq⟩
    . cases hhalted
  have hstop : ∀ step ∈ s.upcoming.head?, s.takes step = false := by
    rcases hupcoming with heq | ⟨options, rest, heq⟩
    . simp [heq]
    . simp [heq, takes, passes, Step.line?]
  obtain ⟨hreach, hbeyond⟩ := rests_behind (List.forall_mem_nil _) (List.nil_append _).symm hstop
  have hlines : s.lines = [] := by rw [lines, hreach, List.filterMap_nil]
  have htrails : s.trails = false := by
    rw [trails_eq hlines, hreach]
    rfl
  refine ⟨hreach, hlines, ?_, ?_⟩
  . unfold finish
    rw [hbeyond]
    rcases hupcoming with heq | ⟨options, rest, heq⟩
    . simp [heq, htrails]
    . simp [heq, htrails]
  . have hchoices : Engine.choices s = Choice.numbered (s.options.map (·.1)) := rfl
    rw [hbeyond, hchoices, options]
    rcases hupcoming with heq | ⟨_ | ⟨option, options⟩, rest, heq⟩
    . simp [heq, arrival, offering, Choice.numbered]
    . simp [heq, arrival, offering, Choice.numbered]
    . simp [heq, arrival, offering, Choice.numbered]

end Continuation

end Story

end Parley.Script
