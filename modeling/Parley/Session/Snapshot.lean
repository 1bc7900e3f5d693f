import Parley.Runner

namespace Parley

namespace Session

variable {S E : Type} [Engine S E]

/--
The state of the story as a text. Without a story, or if it cannot be saved, there is a log message
and no text.
-/
def save (s : Session S E) : Option String × Session S E :=
  match s.runner.story with
  | none =>
    (none, s.log .warn ("No active story found. Please call start() first before trying to get " ++
      "dialogue save state."))
  | some story =>
    match Engine.save story with
    | .ok text => (some text, s)
    | .error error => (none, s.log .error ("Failed to save the dialogue state: " ++ error.message))

/--
Takes over a state. Line, choices and handlers stay as they are. Without a story there is only a log
message.
-/
def load (s : Session S E) (text : String) : Except EngineError Unit × Session S E :=
  match s.runner.story with
  | none =>
    (.ok (),
      s.log .warn
        ("No active story found. Please call start() first before trying to load " ++
          "dialogue save state."))
  | some story =>
    let (result, story) := Engine.load story text
    (result, s.mapRunner ({ · with story := some story }))

end Session

end Parley
