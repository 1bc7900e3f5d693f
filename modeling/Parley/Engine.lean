import Parley.Error
import Parley.Function

/-!
This module contains what a runner needs of a story: `Engine` is the class of the stories that a
runner can drive. A method that may call functions or observers of the host takes the world along,
and each method that changes the story gives the story back also when it fails.
-/

namespace Parley

/--
A story of the type `E`, whose functions work on a host's memory of the type `S`.
-/
class Engine (S : outParam Type) (E : Type) where
  /-- Whether there is another line before the next decision point or the end. -/
  canContinue : E → Bool
  /-- Goes on by one line. -/
  continueOne : E → World S → Except EngineError Line × E × World S
  /-- The choices at the current decision point, in order. -/
  choices : E → List Choice
  choose : E → Nat → Except EngineError Unit × E
  /-- Makes the story as if it had just been loaded. -/
  reset : E → World S → Except EngineError Unit × E × World S
  /-- Goes to the start, keeping variables and visit counts. -/
  rewind : E → Except EngineError Unit × E
  /-- The value of a variable that holds a scalar. -/
  scalar? : E → String → Option Value
  hasVariable : E → String → Bool := fun story name => (scalar? story name).isSome
  setVariable : E → String → Value → World S → Except EngineError Unit × E × World S
  /-- Lets an observer know of every change of a variable. -/
  observe : E → String → Observer → Except EngineError Unit × E
  /-- Binds a function under its name, in the place of an earlier one. The flag says whether the
  function may be called while the story looks ahead of the current line. -/
  bind : E → Function S → Bool → Except EngineError Unit × E
  /-- The state of the story as a text. -/
  save : E → Except EngineError String
  /-- Takes over a state from a text. -/
  load : E → String → Except EngineError Unit × E

end Parley
