import Parley.Value

namespace Parley

inductive Severity where
  | warning
  | error
deriving DecidableEq, Repr, Inhabited

def Severity.name : Severity → String
  | .warning => "Warning"
  | .error => "Error"

inductive EngineError where
  /-- A failure while the story runs. -/
  | runtime (text : String)
  /-- A text that holds no story, or no state of one. -/
  | badJson (text : String)
  /-- A request that does not fit the story. -/
  | badArgument (text : String)
  /-- A request that does not fit the state of the story. -/
  | invalidState (text : String)
deriving DecidableEq, Repr, Inhabited

def EngineError.message : EngineError → String
  | .runtime text => "story engine error: " ++ text
  | .badJson text => "Error parsing JSON: " ++ text
  | .badArgument text => "Bad argument: " ++ text
  | .invalidState text => "Invalid story state: " ++ text

inductive RunnerError where
  | noActiveStory
  | alreadyActive
  | noActiveChoices
  | choiceOutOfRange (index count : Nat)
  | unknownVariable (name : String)
  | typeMismatch (name : String) (expected : Kind)
  | engine (error : EngineError)
deriving DecidableEq, Repr, Inhabited

def RunnerError.message : RunnerError → String
  | .noActiveStory => "DialogueRunner does not have an active story"
  | .alreadyActive => "DialogueRunner already has an active story, stop it first"
  | .noActiveChoices => "DialogueRunner does not have any active choices to make"
  | .choiceOutOfRange index count =>
    "DialogueRunner only has `" ++ toString count ++ "` choices and is zero based, index `" ++
      toString index ++ "` is out of range"
  | .unknownVariable name => "the active story does not contain the variable `" ++ name ++ "`"
  | .typeMismatch name expected => "variable `" ++ name ++ "` is not of type " ++ expected.name
  | .engine error => error.message

end Parley
