import Parley.Proofs.Emission
import Parley.Proofs.History.Prompt
import Parley.Script.Story

/-!
This module contains which story a start goes on with. Out of a handler it is the story that was
just started. From outside of any handler the start is announced first, and then whatever story is
active goes on, so that a handler that puts another story in its place makes that one go on.
-/

namespace Parley

namespace History

theorem adoptions_append (later past : History)
    : adoptions (later ++ past) = adoptions later + adoptions past := by
  induction later with
  | nil => simp [adoptions]
  | cons entry later ih =>
    cases entry with
    | adopted =>
      simp only [List.cons_append, adoptions, ih]
      omega
    | _ => simpa [adoptions] using ih

theorem adoptions_eq_zero {h : History} : adoptions h = 0 ↔ .adopted ∉ h := by
  induction h with
  | nil => simp [adoptions]
  | cons entry past ih => cases entry <;> simp [adoptions, ih]

end History

namespace Session

open History

variable {S E : Type} [Engine S E] {s s₁ : Session S E}

/--
The number of the story that a request to go on would move. There is none unless the runner is
active.
-/
def mover? (s : Session S E) : Option Nat :=
  if s.runner.status = .active then some (adoptions s.history) else none

theorem advance_unmoved (hnone : s.mover? = none) (emit : Event → Run S E Unit)
    : ∃ s', outcome (Run.advance emit) s = (some (), s') ∧ s'.runner = s.runner ∧
        s'.history = s.history := by
  have hactive : s.runner.status ≠ .active := by
    intro hactive
    simp [mover?, hactive] at hnone
  cases hpaused : s.runner.paused with
  | true => exact ⟨s, by simp [Run.advance, Run.tryAdvance, Run.reporting, hpaused], rfl, rfl⟩
  | false =>
    have hstory : s.runner.story = none := by
      rw [ne_eq, Runner.status_eq_active, hpaused] at hactive
      simpa using hactive
    have hstep : s.step = (.error .noActiveStory, s) := by
      simp [step, hstory]
    refine ⟨s.report .noActiveStory, ?_, rfl, history_log _ _⟩
    simp [Run.advance, Run.tryAdvance, Run.reporting, Run.report, hpaused, hstep]

theorem request_eq (bound : Nat) (operation : Operation S E)
    : s.request bound operation
        =
      outcome (Run.operation (Run.emitWith (Run.drain bound)) operation) s := rfl

theorem request_start (story : E) (hidle : s.runner.story = none) (bound : Nat)
    : s.request bound (.start story true)
        =
      match s.request bound (.start story false) with
      | (none, s₁) => (none, s₁)
      | (some _, s₁) => s₁.request bound .advance := by
  simp only [request_eq, Run.operation]
  rw [Run.start_advance, hidle, Option.isNone_none, if_pos rfl, outcome_bind]
  rcases outcome (Run.start (Run.emitWith (Run.drain bound)) story false) s with ⟨_ | _, s₁⟩
  . rfl
  . rfl

theorem suffix_start (story : E) (hidle : s.runner.story = none) (bound : Nat)
    : .emitted .started :: .adopted :: s.history
        <:+ (s.request bound (.start story false)).2.history := by
  have hstart : s.request bound (.start story false)
      = outcome (Run.emitWith (Run.drain bound) .started) (s.adopt story) := by
    simp [request_eq, Run.operation, Run.start, hidle]
  rw [hstart, ← history_adopt]
  exact Run.suffix_emitWith bound .started (s.adopt story)

theorem start_dispatching (story : E) (hidle : s.runner.story = none)
    (hdispatching : s.runner.dispatching = true) (bound : Nat)
    : s.request bound (.start story false) = (some (), (s.adopt story).enqueue .started) := by
  have hadopt : ((s.adopt story).enqueue .started).runner.dispatching = true := hdispatching
  simp only [request_eq, Run.operation, Run.start, hidle, Run.emitWith, outcome_bind, outcome_get,
    outcome_set, outcome_modify, Option.isSome_none, Bool.false_eq_true, if_false, hadopt, if_true]
  rfl

omit [Engine S E] in
theorem mover_of_history {later : History}
    (hhistory : s₁.history = later ++ .emitted .started :: .adopted :: s.history)
    : (s₁.mover? = none ∨ s₁.mover? = some (adoptions s.history + 1))
        ↔
      (s₁.runner.status = .active → .adopted ∉ later) := by
  have hcount : adoptions s₁.history = adoptions later + (adoptions s.history + 1) := by
    rw [hhistory, adoptions_append]
    rfl
  unfold mover?
  split
  . next hactive => simp [hcount, hactive, adoptions_eq_zero]
  . next hactive => simp [hactive]

theorem start_goes_on (story : E) (hidle : s.runner.story = none) {bound : Nat} {done : Option Unit}
    (hstart : s.request bound (.start story false) = (done, s₁))
    : s.request bound (.start story true)
        =
      (if done.isSome then s₁.request bound .advance else (none, s₁)) ∧
      (s₁.mover? = none → ∃ s₂, s₁.request bound .advance = (some (), s₂) ∧
        s₂.runner = s₁.runner ∧ s₂.history = s₁.history) ∧
      ∃ later, s₁.history = later ++ .emitted .started :: .adopted :: s.history ∧
        (s.runner.dispatching = true → later = []) ∧
        ((s₁.mover? = none ∨ s₁.mover? = some (adoptions s.history + 1))
            ↔
          (s₁.runner.status = .active → .adopted ∉ later)) := by
  obtain ⟨later, hhistory⟩ := suffix_start story hidle bound
  rw [hstart] at hhistory
  refine ⟨?_, fun hnone => advance_unmoved hnone _, later, hhistory.symm, ?_,
    mover_of_history hhistory.symm⟩
  . rw [request_start story hidle, hstart]
    cases done with
    | none => rfl
    | some _ => rfl
  . intro hdispatching
    rw [start_dispatching story hidle hdispatching, Prod.mk.injEq] at hstart
    rw [← hstart.2, history_enqueue, history_adopt] at hhistory
    exact List.append_left_eq_self.mp hhistory

/--
A host with a handler that, the first time that a start is announced, stops the story and starts
another one without going on.
-/
def usurper : Program Bool (Script.Story Bool) :=
  Routine.program do
    let _ ← Routine.subscribe .started fun _ => do
      unless ← Routine.perform .recall do
        Routine.perform (.remember fun _ => true)
        Routine.perform .stop
        Routine.perform (.start (.new .empty [[.line ⟨"two", []⟩]]) false)

def usurped : Session Bool (Script.Story Bool) :=
  ((Session.new {} false).run 1 usurper).2

def oneLine : Script.Story Bool :=
  .new .empty [[.line ⟨"one", []⟩]]

def usurpation (autoAdvance : Bool) : Session Bool (Script.Story Bool) :=
  (usurped.request 5 (.start oneLine autoAdvance)).2

theorem history_usurpation
    : (usurpation false).history
        =
      [.left ⟨0⟩, .entered ⟨0⟩ .started .active, .delivering .started, .delivering .stopped,
        .left ⟨0⟩, .emitted .started, .adopted, .stopped true, .emitted .stopped, .stopping,
        .entered ⟨0⟩ .started .active, .delivering .started] ++
      .emitted .started :: .adopted :: usurped.history := by
  decide

-- The story that goes on is the second one. It was started without going on, and yet its line is
-- shown.
theorem start_goes_on_usurper
    : usurped.runner.story = none ∧ adoptions usurped.history = 0 ∧
      (usurped.request 5 (.start oneLine true)).1 = some () ∧
      (usurpation false).mover? = some 2 ∧ (usurpation false).runner.line = none ∧
      (usurpation true).runner.line = some ⟨"two", []⟩ ∧
      emitted (usurpation true).history = emitted (usurpation false).history ++
        [.newLine ⟨"two", []⟩] := by
  refine ⟨rfl, rfl, rfl, ?_⟩
  decide

theorem start_goes_on_usurped
    : usurped.runner.story = none ∧
      usurped.request 5 (.start oneLine false) = (some (), usurpation false) ∧
      usurped.request 5 (.start oneLine true) = (usurpation false).request 5 .advance ∧
      ¬((usurpation false).mover? = none ∨ (usurpation false).mover? = some 1) := by
  have hstart : usurped.request 5 (.start oneLine false) = (some (), usurpation false) := rfl
  obtain ⟨hgoes, _, later, hhistory, _, hiff⟩ := start_goes_on oneLine rfl hstart
  refine ⟨rfl, hstart, hgoes, fun hsame => ?_⟩
  have hadopted : .adopted ∉ later := hiff.mp hsame rfl
  rw [history_usurpation, List.append_cancel_right_eq] at hhistory
  rw [← hhistory] at hadopted
  simp at hadopted

end Session

end Parley
