import Parley.Engine

namespace Parley

inductive Method where
  | continueOne
  | chooseChoice
  | resetState
  | goToStart
  | setVariable
  | observeVariable
  | bindFunction
  | saveState
  | loadState
deriving DecidableEq, Repr, Inhabited

namespace Method

def all : List Method :=
  [.continueOne, .chooseChoice, .resetState, .goToStart, .setVariable, .observeVariable,
    .bindFunction, .saveState, .loadState]

def name : Method → String
  | .continueOne => "continue_one"
  | .chooseChoice => "choose_choice"
  | .resetState => "reset_state"
  | .goToStart => "go_to_start"
  | .setVariable => "set_variable"
  | .observeVariable => "observe_variable"
  | .bindFunction => "bind_external_function"
  | .saveState => "save_state"
  | .loadState => "load_state"

def ofName? (name : String) : Option Method :=
  all.find? (·.name = name)

end Method

/--
A story some of whose methods fail before they do anything.
-/
structure Faulty (E : Type) where
  story : E
  faults : List Method := []

namespace Faulty

variable {S E : Type} [Engine S E]

def injected (method : Method) : EngineError :=
  .runtime ("injected " ++ method.name ++ " failure")

def works (f : Faulty E) (method : Method) : Except EngineError Unit :=
  if method ∈ f.faults then .error (injected method) else .ok ()

def attempt (f : Faulty E) (method : Method) (call : E → Except EngineError Unit × E) :
    Except EngineError Unit × Faulty E :=
  match f.works method with
  | .error error => (.error error, f)
  | .ok _ =>
    let (result, story) := call f.story
    (result, { f with story })

def attemptIn {α : Type} (f : Faulty E) (w : World S) (method : Method)
    (call : E → World S → Except EngineError α × E × World S) :
    Except EngineError α × Faulty E × World S :=
  match f.works method with
  | .error error => (.error error, f, w)
  | .ok _ =>
    let (result, story, w) := call f.story w
    (result, { f with story }, w)

instance : Engine S (Faulty E) where
  canContinue f := Engine.canContinue f.story
  continueOne f w := f.attemptIn w .continueOne Engine.continueOne
  choices f := Engine.choices f.story
  choose f index := f.attempt .chooseChoice (Engine.choose · index)
  reset f w := f.attemptIn w .resetState Engine.reset
  rewind f := f.attempt .goToStart Engine.rewind
  scalar? f name := Engine.scalar? f.story name
  hasVariable f name := Engine.hasVariable f.story name
  setVariable f name value w :=
    f.attemptIn w .setVariable fun story w => Engine.setVariable story name value w
  observe f name observer := f.attempt .observeVariable (Engine.observe · name observer)
  bind f function lookaheadSafe :=
    f.attempt .bindFunction (Engine.bind · function lookaheadSafe)
  save f := do
    f.works .saveState
    Engine.save f.story
  load f text := f.attempt .loadState (Engine.load · text)

end Faulty

end Parley
