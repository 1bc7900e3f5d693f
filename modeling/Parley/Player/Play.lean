import Parley.Dispatch
import Parley.Ink.Source
import Parley.Ink.Story
import Parley.Player.Arguments
import Parley.Player.Command
import Parley.Player.Terminal

/-!
This module contains the player: it prints the lines of a story as they come, asks at each decision
point what to do, and ends with the story, with the input or on request. The session of a player
remembers the text that is shown and not yet printed.
-/

namespace Parley.Player

inductive Failure where
  | unreadable (file reason : String)
  | unwritable (file reason : String)
  | badEnvelope (file : String) (fault : Json.Fault)
  | notStarted (file : String)
  | notSaved
  | notLoaded (error : EngineError)
  /-- The bound on events or on decision points is exceeded. -/
  | endless

namespace Failure

def message : Failure → String
  | .unreadable file _ => "could not read file `" ++ file ++ "`"
  | .unwritable file _ => "could not write file `" ++ file ++ "`"
  | .badEnvelope file _ => "invalid asset file `" ++ file ++ "`"
  | .notStarted file => "could not start the story in `" ++ file ++ "`"
  | .notSaved => "could not get the story state"
  | .notLoaded error => error.message
  | .endless => "the story does not come to an end"

def cause? : Failure → Option String
  | .unreadable _ reason | .unwritable _ reason => some reason
  | .badEnvelope _ fault => some fault.message
  | _ => none

def report (failure : Failure) : String :=
  let cause :=
    match failure.cause? with
    | none => ""
    | some cause => "\n\nCaused by:\n    " ++ cause
  "Error: " ++ failure.message ++ cause ++ "\n"

end Failure

/--
A line as it is printed: its text, and its tags if it has any.
-/
def lineText (line : Line) : String :=
  let tags := if line.tags.isEmpty then "" else "# tags: " ++ ", ".intercalate line.tags ++ "\n"
  line.text ++ "\n" ++ tags

/--
The question at a decision point: the choices, numbered from one, and a prompt.
-/
def promptText (choices : List Choice) : String :=
  let options := choices.mapIdx fun i choice => toString (i + 1) ++ ": " ++ choice.text ++ "\n"
  "\n" ++ String.join options ++ "?> "

def helpText : String :=
  "Commands:\n\t<option number>\n\tload <filename>\n\tsave <filename>\n\treset\n\trewind\n" ++
    "\tquit\n\t\n"

variable {m : Type → Type} [Monad m] [Terminal m] {E : Type} [Engine String E]

/--
Prints the question, and reads a line of the input, until there is a command. There is none if the
input ends first. At most `prompts` lines are read.
-/
def readCommand (choices : List Choice) : (prompts : Nat) → ExceptT Failure m (Option Command)
  | 0 => throw .endless
  | prompts + 1 => do
    Terminal.print (promptText choices)
    match ← Terminal.readLine with
    | none => return none
    | some line =>
      match Entry.ofLine choices.length line.toList with
      | .accepted command => return some command
      | .blank => readCommand choices prompts
      | .refused refusal =>
        Terminal.complain ("<" ++ refusal.message ++ ">\n")
        readCommand choices prompts

/--
Prints the question together with an answer that the player picked by itself.
-/
def pickCommand (choices : List Choice) : m Command := do
  let index ← Terminal.pick choices.length
  Terminal.print (promptText choices ++ toString (index + 1) ++ "\n")
  return .choose index

def contentOf (file : String) : ExceptT Failure m String := do
  match ← Terminal.readFile file with
  | .ok content => return content
  | .error reason => throw (.unreadable file reason)

/--
Lets a session do something and prints the lines that it shows.
-/
def act (bound : Nat) (s : Session String E) (routine : Routine String E Unit) :
    ExceptT Failure m (Session String E) := do
  match s.run? bound routine.program with
  | none => throw .endless
  | some s =>
    Terminal.print s.world.memory
    return { s with world := ⟨"", []⟩ }

/--
Carries a command out. There is no session left if it ends the play.
-/
def obey (bound : Nat) (s : Session String E) :
    Command → ExceptT Failure m (Option (Session String E))
  | .choose index => some <$> act bound s (Routine.perform (.choose index true))
  | .exit => return none
  | .help => do
    Terminal.print helpText
    return some s
  | .load file => do
    let content ← contentOf file
    match s.load content with
    | (.error error, _) => throw (.notLoaded error)
    | (.ok _, s) =>
      Terminal.print "Ok.\n"
      some <$> act bound s (Routine.perform .advance)
  | .save file => do
    match s.save with
    | (none, _) => throw .notSaved
    | (some content, s) =>
      match ← Terminal.writeFile file content with
      | .error reason => throw (.unwritable file reason)
      | .ok _ =>
        Terminal.print "Ok.\n"
        return some s
  | .reset => some <$> act bound s do
    Routine.perform .reset
    Routine.perform .advance
  | .rewind => some <$> act bound s do
    Routine.perform .rewind
    Routine.perform .advance

/--
Asks and obeys until there are no choices, the input ends or the play is ended, at most `turns`
times.
-/
def playOn (auto : Bool) (bound : Nat) (s : Session String E) :
    (turns : Nat) → ExceptT Failure m (Session String E)
  | 0 => throw .endless
  | turns + 1 => do
    let choices := s.runner.choices
    if choices.isEmpty then
      return s
    let answer ← if auto then some <$> pickCommand choices else readCommand choices (turns + 1)
    match answer with
    | none => return s
    | some command =>
      match ← obey bound s command with
      | none => return s
      | some s => playOn auto bound s turns

def showLine : Event → Routine String E Unit
  | .newLine line => do
    Routine.perform (.remember (· ++ lineText line))
    Routine.perform .advance
  | _ => Routine.perform .advance

def playStory (settings : Settings) (bound : Nat) (opening : Routine String E Unit) :
    ExceptT Failure m Unit := do
  let s := Session.new ⟨!settings.strict⟩ ""
  let s ← act bound s do
    let _ ← Routine.subscribe .newLine showLine
    opening
  if s.runner.story.isNone then
    throw (.notStarted settings.file)
  let s ← playOn settings.auto bound s bound
  let _ ← act bound s (Routine.perform .stop)

def sourceOf (settings : Settings) (content : String) : Except Failure Ink.Source :=
  if settings.asset then
    match (Library.load {} content).1 with
    | .ok reference => .ok (.reference reference)
    | .error fault => .error (.badEnvelope settings.file fault)
  else
    .ok (.document content)

/--
Plays the story in a file. The stories are those of the runtime `I` of ink.
-/
def play (I : Type) [Ink.Runtime String I] (settings : Settings) (bound : Nat)
    : ExceptT Failure m Unit := do
  let content ← contentOf settings.file
  match sourceOf settings content with
  | .error failure => throw failure
  | .ok source => playStory (E := Ink.Tale I) settings bound (source.start true)

def versionText : String := "dialogue-player 0.1.0\n"

def usageText : String :=
  "Usage: dialogueplayer [-a] [-e] [--asset] <file>\n"

/--
Does what a command line asks for when it is read in this way, and gives the exit code: one for a
failure, two for a misuse. The bound is on the events that a command may cause and on the number of
commands.
-/
def runWith (I : Type) [Ink.Runtime String I] (parse : List String → Request)
    (arguments : List String) (bound : Nat) : m Nat := do
  match parse arguments with
  | .version =>
    Terminal.print versionText
    return 0
  | .help =>
    Terminal.print usageText
    return 0
  | .misuse misuse =>
    Terminal.complain ("error: " ++ misuse.message ++ "\n\n" ++ usageText)
    return 2
  | .play settings =>
    match ← (play I settings bound).run with
    | .ok _ => return 0
    | .error failure =>
      Terminal.complain failure.report
      return 1

def run (arguments : List String) (bound : Nat) : m Nat :=
  runWith (Ink.Interpreter String) Request.ofArguments arguments bound

end Parley.Player
