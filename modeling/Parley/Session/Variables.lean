import Parley.Runner

namespace Parley

namespace Session

variable {S E : Type} [Engine S E]

def trySetVariable (s : Session S E) (name : String) (value : Value) :
    Except RunnerError Unit × Session S E :=
  match s.runner.story with
  | none => (.error .noActiveStory, s)
  | some story =>
    if Engine.hasVariable story name then
      let (result, story, world) := Engine.setVariable story name value s.world.unwritten
      (result.mapError .engine, s.absorb story world)
    else
      (.error (.unknownVariable name), s)

/--
Gives a value to a declared variable, and logs a failure. Without a story nothing happens.
-/
def setVariable (s : Session S E) (name : String) (value : Value) : Session S E :=
  if s.runner.story.isNone then
    s
  else
    match s.trySetVariable name value with
    | (.ok _, s) => s
    | (.error error, s) => s.report error

def variableValue (s : Session S E) (name : String) : Option Value :=
  s.runner.story.bind (Engine.scalar? · name)

def tryReadVariable (s : Session S E) (name : String) (kind : Kind) :
    Except RunnerError kind.Carrier :=
  match s.runner.story with
  | none => .error .noActiveStory
  | some story =>
    match Engine.scalar? story name with
    | some value =>
      match value.get? kind with
      | some x => .ok x
      | none => .error (.typeMismatch name kind)
    | none =>
      if Engine.hasVariable story name then
        .error (.typeMismatch name kind)
      else
        .error (.unknownVariable name)

/--
Reads a variable that holds a value of a kind. A failure is logged and gives the default value of
the kind.
-/
def readVariable (s : Session S E) (name : String) (kind : Kind) : kind.Carrier × Session S E :=
  match s.tryReadVariable name kind with
  | .ok x => (x, s)
  | .error error => (kind.fallback, s.report error)

/--
Lets an observer know of the changes of a declared variable. A failure is logged, and without a
story nothing happens.
-/
def observe (s : Session S E) (name : String) (observer : Observer) : Session S E :=
  match s.runner.story with
  | none => s
  | some story =>
    if Engine.hasVariable story name then
      match Engine.observe story name observer with
      | (.ok _, story) => s.mapRunner ({ · with story := some story })
      | (.error error, story) =>
        (s.mapRunner ({ · with story := some story })).log .error
          ("Failed to observe the variable `" ++ name ++ "`: " ++ error.message)
    else
      s.log .warn
        ("The active story can not observe the variable `" ++ name ++ "` because it doesn't exist.")

def observeAll (s : Session S E) (names : List String) (observer : Observer) : Session S E :=
  names.foldl (fun s name => s.observe name observer) s

def bind (s : Session S E) (function : Function S) (lookaheadSafe : Bool) : Session S E :=
  match s.runner.story with
  | none => s
  | some story =>
    match Engine.bind story function lookaheadSafe with
    | (.ok _, story) => s.mapRunner ({ · with story := some story })
    | (.error error, story) =>
      (s.mapRunner ({ · with story := some story })).log .error
        ("Failed to bind the external function `" ++ function.name ++ "`: " ++ error.message)

end Session

end Parley
