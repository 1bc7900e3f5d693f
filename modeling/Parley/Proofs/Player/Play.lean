import Parley.Proofs.Ink.Interpreter
import Parley.Proofs.Player.Obey

/-!
This module contains that the player does just what the naive player does: the exit code, the output
and the files of a play are those of a play in which every command goes to the story itself.
-/

namespace Parley.Player

section Answer

variable {m : Type → Type} [Monad m] [Terminal m] {E : Type} [Engine String E]

def answer (auto : Bool) (bound : Nat) (s : Session String E) (turns : Nat)
    : Option Command → ExceptT Failure m (Session String E)
  | none => return s
  | some command => do
    match ← obey bound s command with
    | none => return s
    | some s => playOn auto bound s turns

theorem playOn_succ (auto : Bool) (bound : Nat) (s : Session String E) (turns : Nat)
    : playOn (m := m) auto bound s (turns + 1)
        =
      if s.runner.choices.isEmpty then
        pure s
      else
        (if auto then some <$> (pickCommand s.runner.choices : ExceptT Failure m Command)
          else readCommand s.runner.choices (turns + 1)) >>= answer auto bound s turns := by
  conv =>
    lhs
    unfold playOn
  dsimp only
  split
  . rfl
  . cases auto with
    | true => rfl
    | false => rfl

end Answer

section Session

variable {F : Type} [FileSystem F] {E : Type} [Engine String E] {P : E → Prop}
    {s : Session String E} {d : Desk F} {limit bound : Nat}
variable (hP : Engine.Secluded P)

include hP

end Session

section Run

variable {I : Type} [Ink.Runtime String I] [Ink.Runtime.LawfulRuntime String I]

theorem completes_opening {source : Ink.Source} {options : LoadOptions}
    {story final : Ink.Tale I} {lines : List Line} {failure : Option EngineError} {bound : Nat}
    (hcreate : source.create options = .ok (some story))
    (hsegment : Direct.Segment story lines failure final) (hbound : lines.length + 1 < bound)
    : Completes bound (Session.new options "")
        (do
          let _ ← Routine.subscribe .newLine showLine
          source.start true : Routine String (Ink.Tale I) Unit).program
        (Halts Ink.Tale.Unbound · failure final (Direct.textOf lines)) := by
  have hstart := ends_start
    (s := ((Session.new options "" : Session String (Ink.Tale I)).subscribe .newLine
      fun event => (showLine event).program).2)
    Ink.Tale.secluded_unbound (Ink.Tale.unbound_of_create hcreate) rfl rfl rfl rfl hsegment hbound
  change Run.Ends _ _ (fun _ s' => Halts _ s' failure final ("" ++ Direct.textOf lines)) _ at hstart
  rw [String.empty_append] at hstart
  refine (Run.ends_bind _ _).mpr ((Run.ends_modifyGet _).mpr ?_)
  apply completes_perform
  unfold Run.operation
  simp only [Run.ends_bind, Run.ends_get, Run.ends_pure]
  have hoptions : ((Session.new options "" : Session String (Ink.Tale I)).subscribe .newLine
      fun event => (showLine event).program).2.runner.view.options = options := rfl
  rw [hoptions, hcreate]
  exact completes_perform hstart

end Run

def soleText : String :=
  "\x7b\"inkVersion\":21,\"root\":[[\"^Q\",\"\\n\",\"ev\",\"str\",\"^Sole\",\"/str\",\"/ev\"," ++
    "\x7b\"*\":\"0.c-0\",\"flg\":20\x7d," ++
    "\x7b\"c-0\":[\"\\n\",\"^Done.\",\"\\n\",\"end\",\x7b\"#f\":5\x7d]\x7d]," ++
    "\"done\",null],\"listDefs\":\x7b\x7d\x7d"

/--
A desk with one story on it, in which there is one choice to take.
-/
def soleDesk : Desk where
  lines := ["2\n", "reset\n", "1\n"]
  files := .ofList [("s", soleText)]

theorem read_sole : FileSystem.read soleDesk.files "s" = .ok soleText := by
  have hfound : (Directory.fileOf? "s").bind soleDesk.files.get? = some soleText := by
    decide +kernel
  change (((Directory.fileOf? "s").bind soleDesk.files.get?).map Except.ok).getD _ = _
  rw [hfound]
  rfl

end Parley.Player
