import Parley.Player.Play

/-!
This module contains the naive player, which has no runner, no events and no handlers: it works on a
story directly and forgets nothing that it could ask the story for.
-/

namespace Parley.Player

/--
What a play comes to: the exit code, all that was printed, and the files in the end.
-/
structure Outcome (F : Type) where
  exit : Nat
  output : String
  files : F

namespace Direct

def nowhere : World String :=
  ⟨"", []⟩

inductive Turn (F E : Type) where
  | ended (outcome : Outcome F)
  | ongoing (output : String) (files : F) (story : E)

variable {F : Type} [FileSystem F] {E : Type} [Engine String E]

/--
The lines of a story up to the next decision point or the end, as they are printed, if the story
does not fail on the way and there are fewer than `limit` of them.
-/
def tell : (limit : Nat) → E → Option (String × E)
  | 0, _ => none
  | limit + 1, story =>
    if Engine.canContinue story then
      match Engine.continueOne story nowhere with
      | (.ok line, story, _) =>
        (tell limit story).map fun (text, story) => (lineText line ++ text, story)
      | (.error _, _, _) => none
    else
      some ("", story)

/--
The lines of a story up to the next decision point or the end, or up to where it fails, however many
there are.
-/
inductive Segment : E → List Line → Option EngineError → E → Prop where
  | still {story : E} (still : Engine.canContinue story = false) : Segment story [] none story
  | fails {story behind : E} {error : EngineError} {world : World String}
      (goes : Engine.canContinue story = true)
      (failed : Engine.continueOne story nowhere = (.error error, behind, world))
      : Segment story [] (some error) behind
  | line {story behind final : E} {line : Line} {lines : List Line} {failure : Option EngineError}
      {world : World String} (goes : Engine.canContinue story = true)
      (told : Engine.continueOne story nowhere = (.ok line, behind, world))
      (rest : Segment behind lines failure final)
      : Segment story (line :: lines) failure final

def textOf : List Line → String
  | [] => ""
  | line :: lines => lineText line ++ textOf lines

def goOn (limit : Nat) (output : String) (files : F) (story : E) : Option (Turn F E) :=
  (tell limit story).map fun (text, story) => .ongoing (output ++ text) files story

def obey (limit : Nat) (output : String) (files : F) (story : E) : Command → Option (Turn F E)
  | .choose index =>
    match Engine.choose story index with
    | (.ok _, story) => goOn limit output files story
    | (.error _, _) => none
  | .exit => some (.ended ⟨0, output, files⟩)
  | .help => some (.ongoing (output ++ helpText) files story)
  | .load file =>
    match FileSystem.read files file with
    | .error _ => some (.ended ⟨1, output, files⟩)
    | .ok content =>
      match Engine.load story content with
      | (.ok _, story) => goOn limit (output ++ "Ok.\n") files story
      | (.error _, _) => some (.ended ⟨1, output, files⟩)
  | .save file =>
    match Engine.save story with
    | .ok content =>
      match FileSystem.write files file content with
      | (.error _, files) => some (.ended ⟨1, output, files⟩)
      | (.ok _, files) => some (.ongoing (output ++ "Ok.\n") files story)
    | .error _ => none
  | .reset =>
    match Engine.reset story nowhere with
    | (.ok _, story, _) => goOn limit output files story
    | (.error _, _, _) => none
  | .rewind =>
    match Engine.rewind story with
    | (.ok _, story) => goOn limit output files story
    | (.error _, _) => none

/--
Plays on from where a story stands still: as long as it has choices, it asks for a command and
carries it out.
-/
def ask (limit : Nat) (lines : List String) (output : String) (files : F) (story : E)
    : Option (Outcome F) :=
  let choices := Engine.choices story
  if choices.isEmpty then
    some ⟨0, output, files⟩
  else
    let output := output ++ promptText choices
    match lines with
    | [] => some ⟨0, output, files⟩
    | line :: lines =>
      match Entry.ofLine choices.length line.toList with
      | .blank | .refused _ => ask limit lines output files story
      | .accepted command =>
        match obey limit output files story command with
        | none => none
        | some (.ended outcome) => some outcome
        | some (.ongoing output files story) => ask limit lines output files story

/--
Plays a story that was just loaded. There is no outcome if the story fails, or goes on for `limit`
lines without decision point or end.
-/
def play (limit : Nat) (d : Desk F) (story : E) : Option (Outcome F) :=
  match tell limit story with
  | none => none
  | some (text, story) => ask limit d.lines (d.output ++ text) d.files story

end Direct

end Parley.Player
