import Parley.Runner

/-!
This module contains how a session moves forward: one step to the next line, the next choices or the
end, and the taking of a choice. Both only decide what happens; announcing it to handlers is left to
the dispatch of events.
-/

namespace Parley

namespace Session

variable {S E : Type} [Engine S E]

/--
Goes on by one step. The result is the event to announce: the next line as long as there is one,
then the choices, and the end if there are none. A failing story leaves line and choices as they
are.
-/
def step (s : Session S E) : Except RunnerError Event × Session S E :=
  match s.runner.story with
  | none => (.error .noActiveStory, s)
  | some story =>
    if Engine.canContinue story then
      match Engine.continueOne story s.world.unwritten with
      | (.error error, story, world) => (.error (.engine error), s.absorb story world)
      | (.ok line, story, world) =>
        (.ok (.newLine line),
          (s.absorb story world).mapRunner ({ · with line := some line, choices := [] }))
    else
      match Engine.choices story with
      | [] => (.ok .ended, s.mapRunner (·.clearContent))
      | choice :: choices =>
        (.ok (.newChoices (choice :: choices)),
          s.mapRunner ({ · with line := none, choices := choice :: choices }))

/--
Takes a choice of the story. It must be one of those that the story offers now.
-/
def commit (s : Session S E) (index : Nat) : Except RunnerError Unit × Session S E :=
  match s.runner.story with
  | none => (.error .noActiveStory, s)
  | some story =>
    let count := (Engine.choices story).length
    if count = 0 then
      (.error .noActiveChoices, s)
    else if count ≤ index then
      (.error (.choiceOutOfRange index count), s)
    else
      let (result, story) := Engine.choose story index
      (result.mapError .engine, s.mapRunner ({ · with story := some story }))

end Session

end Parley
