import Parley.Proofs.Dispatch
import Parley.Proofs.History.TearDown
import Parley.Script.Story

/-!
This module contains what a teardown puts an end to. No event from before it is delivered after it,
and no handler from before it is called after it, unless the teardown was defeated: then the event
under way goes on to handlers from before the teardown.
-/

namespace Parley
namespace Session

open History

theorem run_tears_down {S E : Type} [Engine S E] (options : LoadOptions) (memory : S) (bound : Nat)
    (host : Program S E) (later past : History)
    (htorn : later ++ .tornDown :: past
      = ((Session.new options memory).run bound host).2.history)
    : ((∃ kind token event status,
            .subscribed kind token ∈ past ∧ .entered token event status ∈ later)
          ↔
        Defeated later past) ∧
      (delivered later).Sublist (emitted later) := by
  have hl := lawful_run options memory bound host
  have hw := waiting_run options memory bound host
  rw [← htorn] at hl hw
  constructor
  . exact hl.entered_after_tornDown_iff hw
  . exact (List.sublist_append_left _ _).trans hl.delivered_sublist_emitted

/--
A host with two handlers for the start of a story, the first of which tears the runner down and then
subscribes a new handler.
-/
def phoenix : Program Unit (Script.Story Unit) :=
  Routine.program do
    let _ ← Routine.subscribe .started fun _ => do
      let _ ← Routine.perform .tearDown
      let _ ← Routine.subscribe .ended fun _ => pure ()
    let _ ← Routine.subscribe .started fun _ => pure ()
    Routine.perform (.start (.new .empty []) false)

theorem history_phoenix
    : ((Session.new {} ()).run 2 phoenix).2.history
        =
      [.left ⟨1⟩, .entered ⟨1⟩ .started .idle, .left ⟨0⟩, .subscribed .ended ⟨2⟩]
        ++ .tornDown :: [.entered ⟨0⟩ .started .active, .delivering .started, .emitted .started,
          .adopted, .subscribed .started ⟨1⟩, .subscribed .started ⟨0⟩] := by
  decide

theorem run_calls_phoenix
    : ∃ later past, later ++ .tornDown :: past = ((Session.new {} ()).run 2 phoenix).2.history ∧
        .subscribed .started ⟨1⟩ ∈ past ∧ .entered ⟨1⟩ .started .idle ∈ later := by
  exact ⟨_, _, history_phoenix.symm, by decide, by decide⟩

theorem run_defeats_phoenix
    : ∃ later past, later ++ .tornDown :: past = ((Session.new {} ()).run 2 phoenix).2.history ∧
        Defeated later past := by
  have htears := run_tears_down {} () 2 phoenix _ _ history_phoenix.symm
  refine ⟨_, _, history_phoenix.symm, ?_⟩
  rw [← htears.1]
  exact ⟨.started, ⟨1⟩, .started, .idle, by decide, by decide⟩

end Session
end Parley
