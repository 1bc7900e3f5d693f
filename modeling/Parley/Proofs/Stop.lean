import Parley.Proofs.Dispatch
import Parley.Proofs.History.Stops
import Parley.Script.Story

/-!
This module contains how the end of a session is announced. A stop announces it once and then
releases whatever story is active, so that a story is announced once for each stop that was asked of
it, which is not once when handlers stop or start stories themselves.
-/

namespace Parley

namespace Session

open History

variable {S E : Type} [Engine S E]

theorem run_announces_stops (options : LoadOptions) (memory : S) (bound : Nat)
    (host : Program S E) (past : History)
    (hs : .stopped true :: past <:+ ((Session.new options memory).run bound host).2.history)
    : announced past = (stops past).count (adoptions past) ∧
        ((announced past = 1 ∧ (stops past).head? = some (adoptions past))
            ↔
          ∃ others, stops past = adoptions past :: others ∧ adoptions past ∉ others) := by
  have hannounced := (lawful_run options memory bound host).announced_of_stopped hs
  refine ⟨hannounced, ?_⟩
  rw [hannounced]
  constructor
  . rintro ⟨hone, hhead⟩
    cases hstops : stops past with
    | nil => simp [hstops] at hhead
    | cons number others =>
      simp only [hstops, List.head?_cons, Option.some.injEq] at hhead
      rw [hhead] at hstops ⊢
      simp only [hstops, List.count_cons_self, Nat.add_eq_right] at hone
      exact ⟨others, rfl, List.count_eq_zero.mp hone⟩
  . rintro ⟨others, hstops, hother⟩
    simp [hstops, List.count_eq_zero_of_not_mem hother]

/--
A host whose handler for the end of a session, the first time, stops the story itself and starts
another one.
-/
def encore : Program Bool (Script.Story Bool) :=
  Routine.program do
    let _ ← Routine.subscribe .stopped fun _ => do
      unless ← Routine.perform .recall do
        Routine.perform (.remember fun _ => true)
        Routine.perform .stop
        Routine.perform (.start (.new .empty []) false)
    Routine.perform (.start (.new .empty []) false)
    Routine.perform .stop

theorem history_encore
    : ((Session.new {} false).run 4 encore).2.history
        =
      .stopped true :: [.delivering .started, .left ⟨0⟩, .entered ⟨0⟩ .stopped .active,
        .delivering .stopped, .left ⟨0⟩, .emitted .started, .adopted, .stopped true,
        .emitted .stopped, .stopping, .entered ⟨0⟩ .stopped .active, .delivering .stopped,
        .emitted .stopped, .stopping, .delivering .started, .emitted .started, .adopted,
        .subscribed .stopped ⟨0⟩] := by
  decide

-- The first story is announced twice, the second one is released and was never announced.
theorem run_announces_encore
    : ∃ first second,
        .stopped true :: first <:+ ((Session.new {} false).run 4 encore).2.history ∧
        .stopped true :: second = ((Session.new {} false).run 4 encore).2.history ∧
        .tornDown ∉ second ∧
        (adoptions first = 1 ∧ stops first = [1, 1] ∧ announced first = 2) ∧
        (adoptions second = 2 ∧ stops second = [1] ∧ announced second = 0) := by
  refine ⟨((Session.new {} false).run 4 encore).2.history.drop 9, _, ?_, history_encore.symm, ?_⟩
  . decide
  . decide

theorem run_announces_encore_twice
    : announced (((Session.new {} false).run 4 encore).2.history.drop 9) = 2 := by
  have hannounced := run_announces_stops {} false 4 encore
    (((Session.new {} false).run 4 encore).2.history.drop 9) (by decide)
  rw [hannounced.1]
  decide

end Session
end Parley
