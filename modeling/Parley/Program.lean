import Parley.Engine
import Parley.LoadOptions

/-!
This module contains the programs of a host: everything that it can do with a runner, from outside
or out of a handler, as data. `Operation` is one request to a runner, `Program` is a sequence of
requests that depends on the replies, and `Routine` gives programs the shape of a monad.
-/

namespace Parley

structure View (E : Type) where
  status : Status
  isPaused : Bool
  line : Option Line
  choices : List Choice
  story : Option E
  options : LoadOptions

/--
A request to a runner, or a step of the host's own.
-/
inductive Operation (S E : Type) where
  /-- Goes on to the next line, the next choices or the end; a failure is logged. -/
  | advance
  /-- Goes on; a failure is the reply. -/
  | tryAdvance
  /-- Takes a choice and, if asked to, goes on; a failure is logged. -/
  | choose (index : Nat) (autoAdvance : Bool)
  /-- Takes a choice and, if asked to, goes on; a failure is the reply. -/
  | tryChoose (index : Nat) (autoAdvance : Bool)
  /-- Starts a story and, if asked to, goes on. -/
  | start (story : E) (autoAdvance : Bool)
  /-- Goes back to the beginning of the story and forgets what happened. -/
  | reset
  /-- Goes back to the beginning of the story and keeps its variables and visit counts. -/
  | rewind
  | pause
  | resume
  /-- Announces the end of the session and releases the story. -/
  | stop
  /-- Releases the story and all handlers at once. -/
  | tearDown
  | unsubscribe (token : Token)
  /-- Gives a value to a declared variable; a failure is logged. -/
  | setVariable (name : String) (value : Value)
  /-- Gives a value to a declared variable; a failure is the reply. -/
  | trySetVariable (name : String) (value : Value)
  /-- Reads a variable of a kind, or the default value of the kind with a log message. -/
  | readVariable (name : String) (kind : Kind)
  /-- Reads a variable of a kind; a failure is the reply. -/
  | tryReadVariable (name : String) (kind : Kind)
  /-- Reads a variable, whatever its kind. -/
  | variableValue (name : String)
  /-- Lets an observer know of the changes of a variable. -/
  | observe (name : String) (observer : Observer)
  /-- Lets one observer know of the changes of many variables. -/
  | observeAll (names : List String) (observer : Observer)
  /-- Binds a function of the host. -/
  | bind (function : Function S) (lookaheadSafe : Bool)
  /-- The state of the story as a text, if there is a story that can be saved. -/
  | save
  /-- Takes over a saved state. -/
  | load (text : String)
  | look
  /-- Changes the story behind the runner's back. The reply says whether there is one. -/
  | touch (act : E → World S → E × World S)
  /-- Looks at the host's memory. -/
  | recall
  /-- Changes the host's memory. -/
  | remember (change : S → S)
  | note (text : String)
  | log (level : Level) (message : String)

@[reducible]
def Operation.Reply {S E : Type} : Operation S E → Type
  | .tryAdvance | .tryChoose .. | .trySetVariable .. => Except RunnerError Unit
  | .unsubscribe _ | .touch _ => Bool
  | .readVariable _ kind => kind.Carrier
  | .tryReadVariable _ kind => Except RunnerError kind.Carrier
  | .variableValue _ => Option Value
  | .save => Option String
  | .load _ => Except EngineError Unit
  | .look => View E
  | .recall => S
  | .advance | .choose .. | .start .. | .reset | .rewind | .pause | .resume | .stop | .tearDown
  | .setVariable .. | .observe .. | .observeAll .. | .bind .. | .remember _ | .note _
  | .log .. => Unit

/--
What a host or one of its handlers does: requests to a runner, each of which may depend on the
replies to those before it. A handler is itself a program for each event.
-/
inductive Program (S E : Type) where
  | done
  | perform (operation : Operation S E) (next : operation.Reply → Program S E)
  | subscribe (kind : EventKind) (handler : Event → Program S E) (next : Token → Program S E)

abbrev Handler (S E : Type) := Event → Program S E

/--
A part of a program, with a result for what comes after it.
-/
def Routine (S E α : Type) := (α → Program S E) → Program S E

namespace Routine

variable {S E : Type}

instance : Monad (Routine S E) where
  pure a := fun next => next a
  bind routine f := fun next => routine fun a => f a next

def program (routine : Routine S E Unit) : Program S E :=
  routine fun _ => .done

def perform (operation : Operation S E) : Routine S E operation.Reply :=
  fun next => .perform operation next

def subscribe (kind : EventKind) (handler : Event → Routine S E Unit) : Routine S E Token :=
  fun next => .subscribe kind (fun event => (handler event).program) next

end Routine

end Parley
