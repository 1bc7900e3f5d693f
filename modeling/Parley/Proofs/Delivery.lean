import Parley.Proofs.Course
import Parley.Proofs.Emission
import Parley.Proofs.History.Delivery
import Parley.Script.Story

/-!
This module contains what a runner delivers: every event once and in the order of emission, and each
event to the handlers that were subscribed to it when its delivery began. A delivery stops early
when a handler leaves no handler of any kind subscribed, even if it only took out handlers of its
own kind.
-/

namespace Parley
namespace Session

open History

variable {S E : Type} [Engine S E]

section Queue

-- The host is arbitrary: what holds when it has ended, and after one more request, holds after each
-- of its requests.
theorem run_delivers_in_order (options : LoadOptions) (memory : S) (bound : Nat)
    (host : Program S E)
    : let (result, s) := (Session.new options memory : Session S E).run bound host
      let c := (Session.new options memory : Session S E).course bound host
      (∀ token event status past,
          .entered token event status :: past <:+ s.history → inProgress past = []) ∧
        (∀ past, past <:+ s.history →
          emitted (sinceTearDown past) = delivered (sinceTearDown past) ++ pending past) ∧
        s.runner.pending = pending s.history ∧
        (result.isSome = true →
          s.runner.pending = [] ∧ s.runner.dispatching = false ∧
            emitted (sinceTearDown s.history) = delivered (sinceTearDown s.history) ∧
            ∀ operation reply s', s.request bound operation = (some reply, s') →
              s'.runner.pending = [] ∧ s'.runner.dispatching = false) ∧
        c.now = s ∧
        (∀ past, c.Extends past → emitted past.now.history = past.announced) ∧
        ∀ event (t : Session S E),
          let ended := outcome (Run.emitWith (Run.drain bound) event) t
          .emitted event :: t.history <:+ ended.2.history ∧
            (t.runner.dispatching = true →
              ended.1 = some () ∧ ended.2.history = .emitted event :: t.history ∧
                ended.2.runner.pending = t.runner.pending ++ [event]) := by
  obtain ⟨_, _, hsettled⟩ := settled_run options memory bound host
  have hresting := (Resting.new options memory).run bound host
  obtain ⟨hnow, ⟨_, hstaged⟩, _⟩ := staged_course options memory bound host
  generalize (Session.new options memory : Session S E).run bound host = ended at *
  obtain ⟨result, s⟩ := ended
  have hl : Lawful s.history := hsettled.sound.lawful
  refine ⟨?nested, ?order, ?queue, ?complete, hnow, ?announced, ?emission⟩
  case nested =>
    intro token event status past hs
    exact (hl.allowed hs).1
  case order =>
    intro past hs
    exact (hl.of_suffix hs).emitted_eq
  case queue => exact hsettled.sound.pending
  case complete =>
    intro hdone
    have hrest : Resting s := hresting hdone
    obtain ⟨_, hpoised⟩ := hrest.poised
    refine ⟨hrest.pending, hpoised.dispatching, ?_, ?_⟩
    . rw [hl.emitted_eq, ← hpoised.sound.pending, hrest.pending]
      simp
    . intro operation reply s' hrequest
      have hrest' := hrest.request hrequest
      obtain ⟨_, hpoised'⟩ := hrest'.poised
      exact ⟨hrest'.pending, hpoised'.dispatching⟩
  case announced =>
    intro past hpast
    obtain ⟨_, hpast⟩ := hstaged.of_extends hpast
    exact hpast.emitted_announced
  case emission =>
    intro event t ended
    refine ⟨Run.suffix_emitWith bound event t, ?_⟩
    intro hdispatching
    have hended : ended = (some (), t.enqueue event) := Run.emitWith_inside event hdispatching
    rw [hended]
    exact ⟨rfl, history_enqueue event, rfl⟩

end Queue

section Handlers

variable (options : LoadOptions) (memory : S) (bound : Nat) (host : Program S E)

-- What came later than the beginning of a delivery is all of it if the next entry begins another
-- delivery or if there is none.
theorem run_calls_subscribed (later past : History) (event : Event)
    (hlatest : ∀ other, .delivering other ∉ later)
    (hended : later ++ .delivering event :: past
          = ((Session.new options memory).run bound host).2.history ∨
        ∃ next, .delivering next :: (later ++ .delivering event :: past)
          <:+ ((Session.new options memory).run bound host).2.history)
    : called (later ++ .delivering event :: past) <+: registered event.kind past ∧
        (registered event.kind past).Nodup ∧
        (called (later ++ .delivering event :: past) = registered event.kind past
            ↔
          deserted (later ++ .delivering event :: past) = false) ∧
        (∀ token other status, .entered token other status ∈ later → other = event) ∧
        ∀ kind token, .subscribed kind token ∈ later →
          token ∉ called (later ++ .delivering event :: past) := by
  have hrun := lawful_run options memory bound host
  have hnow : Lawful (later ++ .delivering event :: past) ∧
      waiting (later ++ .delivering event :: past) = [] := by
    rcases hended with heq | ⟨next, hs⟩
    . rw [heq]
      exact ⟨hrun, waiting_run options memory bound host⟩
    . exact ⟨hrun.of_suffix ((List.suffix_cons _ _).trans hs), (hrun.allowed hs).2.1⟩
  obtain ⟨hl, hw⟩ := hnow
  have hsnapshot : snapshot (later ++ .delivering event :: past) = registered event.kind past :=
    snapshot_append hlatest
  have hcalls := hl.called_prefix.1
  have hwhole := hl.called_eq_snapshot_iff hw
  have hnodup := hl.snapshot_nodup
  rw [hsnapshot] at hcalls hwhole hnodup
  refine ⟨hcalls, hnodup, hwhole, ?_, ?_⟩
  . intro token other status hmem
    exact hl.eq_of_entered hlatest hmem
  . intro kind token hmem
    exact hl.not_mem_called_of_subscribed hlatest hmem

/--
A host with two handlers for the start of a story, the first of which takes both out, and perhaps
with a handler for the end of a story.
-/
def quitters (ends : Bool) : Program Unit (Script.Story Unit) :=
  Routine.program do
    let _ ← Routine.subscribe .started fun _ => do
      let _ ← Routine.perform (.unsubscribe ⟨0⟩)
      let _ ← Routine.perform (.unsubscribe ⟨1⟩)
    let _ ← Routine.subscribe .started fun _ => pure ()
    if ends then
      let _ ← Routine.subscribe .ended fun _ => pure ()
    Routine.perform (.start (.new .empty []) false)

theorem run_calls_quitters
    : called ((Session.new {} ()).run 2 (quitters true)).2.history = [⟨0⟩, ⟨1⟩] := by
  have hrun : [.left ⟨1⟩, .entered ⟨1⟩ .started .active, .left ⟨0⟩, .unsubscribed ⟨1⟩,
        .unsubscribed ⟨0⟩, .entered ⟨0⟩ .started .active]
      ++ .delivering .started :: [.emitted .started, .adopted, .subscribed .ended ⟨2⟩,
        .subscribed .started ⟨1⟩, .subscribed .started ⟨0⟩]
        = ((Session.new {} ()).run 2 (quitters true)).2.history := by
    decide
  have hcalls := run_calls_subscribed {} () 2 (quitters true) _ _ .started (by simp) (Or.inl hrun)
  rw [← hrun]
  exact hcalls.2.2.1.mpr (by decide)

theorem run_skips_quitters
    : (let h := ((Session.new {} ()).run 2 (quitters false)).2.history
       .tornDown ∉ h ∧ snapshot h = [⟨0⟩, ⟨1⟩] ∧ called h = [⟨0⟩]) ∧
      (let h := ((Session.new {} ()).run 2 (quitters true)).2.history
       .tornDown ∉ h ∧ snapshot h = [⟨0⟩, ⟨1⟩] ∧ called h = [⟨0⟩, ⟨1⟩]) := by
  decide

end Handlers

end Session
end Parley
