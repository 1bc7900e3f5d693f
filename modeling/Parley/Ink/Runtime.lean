import Parley.Dialogue
import Parley.Error
import Parley.Function

/-!
This module contains what is needed of a library that reads and runs ink: `Runtime` is the class of
the types of its stories. Binding is left to the library as it is: it may refuse a name that is
bound already.
-/

namespace Parley.Ink

/--
A function of the host, and whether it may be called while a story looks ahead.
-/
structure External (S : Type) where
  function : Function S
  lookaheadSafe : Bool

/--
The stories of the type `I`, whose functions work on a host's memory of the type `S`.
-/
class Runtime (S : outParam Type) (I : Type) where
  ofText? : String → Except EngineError I
  /-- Whether a function of the story may stand in for one of the host that is not bound. -/
  withFallbacks : I → Bool → I
  canContinue : I → Bool
  /-- Goes on by one line and gives its text. -/
  continueOne : I → World S → Except EngineError String × I × World S
  /-- The tags of the line that the story went on by. -/
  currentTags : I → Except EngineError (List String) × I
  choices : I → List Choice
  choose : I → Nat → Except EngineError Unit × I
  reset : I → World S → Except EngineError Unit × I × World S
  /-- Goes to a path with no call under way, keeping variables and visit counts. -/
  choosePath : I → String → Except EngineError Unit × I
  /-- A variable, if it is declared, with its value if that is a scalar. -/
  global? : I → String → Option (Option Value)
  setVariable : I → String → Value → World S → Except EngineError Unit × I × World S
  observe : I → String → Observer → Except EngineError Unit × I
  bind : I → String → External S → Except EngineError Unit × I
  unbind : I → String → Except EngineError Unit × I
  save : I → Except EngineError String
  load : I → String → Except EngineError Unit × I
  /-- What is bound under a name. -/
  bound? : I → String → Option (External S)

end Parley.Ink
