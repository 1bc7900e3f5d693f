import Parley.Proofs.Script.Story

namespace Parley.Script.Story

variable {S : Type} {s : Story S}

section Current

def current? (s : Story S) : Option Step :=
  s.knots[s.state.knot]?.bind (·[s.state.step]?)

theorem head?_upcoming : s.upcoming.head? = s.current? := by
  unfold upcoming current?
  rw [List.head?_drop, List.getD_eq_getElem?_getD]
  cases s.knots[s.state.knot]? with
  | none => rfl
  | some knot => rfl

theorem current_of_options (hoptions : s.options ≠ [])
    : s.current? = some (.choices s.options) := by
  rw [← head?_upcoming]
  unfold Story.options at hoptions ⊢
  split
  . next heq => rw [heq, List.head?_cons]
  . next hnone =>
    split at hoptions
    . next heq => exact absurd heq (hnone _ _)
    . exact absurd rfl hoptions

theorem choices_eq
    : Engine.choices s = s.options.mapIdx fun index option => ⟨index, option.1, []⟩ := by
  change Choice.numbered (s.options.map (·.1)) = _
  apply List.ext_getElem
  . simp [Choice.numbered]
  . simp [Choice.numbered]

theorem length_choices : (Engine.choices s).length = s.options.length := by
  rw [choices_eq, List.length_mapIdx]

theorem options_ne_nil (hchoices : Engine.choices s ≠ []) : s.options ≠ [] := by
  intro hnil
  rw [choices_eq, hnil] at hchoices
  contradiction

theorem upcoming_of_choices (hchoices : Engine.choices s ≠ [])
    : ∃ options rest, s.upcoming = .choices options :: rest := by
  have hcurrent := current_of_options (options_ne_nil hchoices)
  rw [← head?_upcoming, List.head?_eq_some_iff] at hcurrent
  obtain ⟨rest, hupcoming⟩ := hcurrent
  exact ⟨s.options, rest, hupcoming⟩

end Current

def passes (s : Story S) : Step → Bool
  | .set .. | .report .. => true
  | .call name .. => s.functions.contains name
  | .line _ | .choices _ => false

def pass (s : Story S) (w : World S) : Step → Story S × World S
  | .set name value =>
    let (s, w) := s.assign name value w
    (s.next, w)
  | .call name arguments target =>
    match s.functions.get? name with
    | none => (s, w)
    | some (function, _) =>
      let (result, w) := function.call arguments w
      let (s, w) := s.assignResult target result w
      (s.next, w)
  | .report message severity => (s.next, w.log (levelOf severity) message)
  | .line _ | .choices _ => (s, w)

def passAll (s : Story S) (w : World S) : List Step → Story S × World S
  | [] => (s, w)
  | step :: steps => (s.pass w step).1.passAll (s.pass w step).2 steps

-- Of a story that takes steps without a choice nothing changes but the step and the variables.
theorem pass_frame (w : World S) (step : Step)
    : ∃ position values,
        (s.pass w step).1 = { s with state := { s.state with step := position, values } } := by
  cases step with
  | call name arguments target =>
    simp only [pass, assignResult]
    split
    . exact ⟨_, _, rfl⟩
    . split
      . exact ⟨_, _, rfl⟩
      . exact ⟨_, _, rfl⟩
  | _ => exact ⟨_, _, rfl⟩

theorem functions_pass (w : World S) (step : Step) : (s.pass w step).1.functions = s.functions := by
  obtain ⟨_, _, hframe⟩ := pass_frame (s := s) w step
  rw [hframe]

theorem passes_pass (w : World S) (step other : Step)
    : (s.pass w step).1.passes other = s.passes other := by
  cases other with
  | call name arguments target => rw [passes, passes, functions_pass]
  | _ => rfl

theorem functions_passAll (w : World S) (steps : List Step)
    : (s.passAll w steps).1.functions = s.functions := by
  induction steps generalizing s w with
  | nil => rfl
  | cons step steps ih => exact (ih (s := (s.pass w step).1) _).trans (functions_pass w step)

theorem play_cons {step : Step} (hpasses : s.passes step = true) (w : World S) (rest : List Step)
    : s.play w (step :: rest) = (s.pass w step).1.play (s.pass w step).2 rest := by
  cases step with
  | line line => contradiction
  | choices options => contradiction
  | set name value => rfl
  | report message severity => rfl
  | call name arguments target =>
    simp only [play, pass]
    cases hbound : s.functions.get? name with
    | none => simp [passes, Table.contains, hbound] at hpasses
    | some bound => rfl

theorem play_frame (w : World S) (steps : List Step)
    : ∃ position values,
        (s.play w steps).2.1 = { s with state := { s.state with step := position, values } } := by
  induction steps generalizing s w with
  | nil => exact ⟨_, _, rfl⟩
  | cons step rest ih =>
    by_cases hpasses : s.passes step = true
    . rw [play_cons hpasses]
      obtain ⟨_, _, hpass⟩ := pass_frame (s := s) w step
      obtain ⟨position, values, hplay⟩ := ih (s := (s.pass w step).1) (s.pass w step).2
      refine ⟨position, values, ?_⟩
      rw [hplay, hpass]
    . cases step with
      | line line => exact ⟨_, _, rfl⟩
      | choices options => exact ⟨_, _, rfl⟩
      | set name value => exact absurd rfl hpasses
      | report message severity => exact absurd rfl hpasses
      | call name arguments target =>
        simp only [play]
        cases hbound : s.functions.get? name with
        | none => exact ⟨_, _, rfl⟩
        | some bound => simp [passes, Table.contains, hbound] at hpasses

-- By induction on the steps that are passed. Passing a step binds no function, so that the later
-- ones are still passed.
theorem play_append {steps : List Step} (hpasses : ∀ step ∈ steps, s.passes step = true)
    (w : World S) (rest : List Step)
    : s.play w (steps ++ rest) = (s.passAll w steps).1.play (s.passAll w steps).2 rest := by
  induction steps generalizing s w with
  | nil => rfl
  | cons step steps ih =>
    rw [List.forall_mem_cons] at hpasses
    rw [List.cons_append, play_cons hpasses.1]
    apply ih
    intro other hmem
    rw [passes_pass]
    exact hpasses.2 other hmem

theorem upcoming_pass {step : Step} {rest : List Step} (hupcoming : s.upcoming = step :: rest)
    (hpasses : s.passes step = true) (w : World S) : (s.pass w step).1.upcoming = rest := by
  cases step with
  | line line => contradiction
  | choices options => contradiction
  | set name value => exact (upcoming_cons (s := (s.assign name value w).1) hupcoming).1
  | report message severity => exact (upcoming_cons hupcoming).1
  | call name arguments target =>
    simp only [pass]
    cases hbound : s.functions.get? name with
    | none => simp [passes, Table.contains, hbound] at hpasses
    | some bound => exact (upcoming_cons ((upcoming_assignResult _ _ _).trans hupcoming)).1

theorem upcoming_passAll {steps rest : List Step} (hupcoming : s.upcoming = steps ++ rest)
    (hpasses : ∀ step ∈ steps, s.passes step = true) (w : World S)
    : (s.passAll w steps).1.upcoming = rest := by
  induction steps generalizing s w with
  | nil => exact hupcoming
  | cons step steps ih =>
    rw [List.forall_mem_cons] at hpasses
    apply ih (upcoming_pass hupcoming hpasses.1 w)
    intro other hmem
    rw [passes_pass]
    exact hpasses.2 other hmem

theorem continueOne_passAll {steps rest : List Step} (hupcoming : s.upcoming = steps ++ rest)
    (hpasses : ∀ step ∈ steps, s.passes step = true) (w : World S)
    : Engine.continueOne s w = Engine.continueOne (s.passAll w steps).1 (s.passAll w steps).2 := by
  change s.play w s.upcoming = (s.passAll w steps).1.play (s.passAll w steps).2
      (s.passAll w steps).1.upcoming
  rw [upcoming_passAll hupcoming hpasses, hupcoming, play_append hpasses]

theorem continueOne_pass {step : Step} {rest : List Step} (hupcoming : s.upcoming = step :: rest)
    (hpasses : s.passes step = true) (w : World S)
    : Engine.continueOne s w = Engine.continueOne (s.pass w step).1 (s.pass w step).2 := by
  have hsteps : s.upcoming = [step] ++ rest := hupcoming
  exact continueOne_passAll hsteps (by simpa using hpasses) w

end Parley.Script.Story
