import Parley.Player.Directory

/-!
This module contains what the player needs of its surroundings. `Terminal` is the class of the
monads in which it can run, and `Desk` is a model of them: a player at a desk with some lines to
type, some files, and a record of all that was printed.
-/

namespace Parley.Player

class Terminal (m : Type → Type) where
  print : String → m Unit
  /-- Prints a text among the errors. -/
  complain : String → m Unit
  /-- The next line of the input, with its newline. There is none at the end of the input. -/
  readLine : m (Option String)
  /-- The content of a file, or the reason for which it cannot be read. -/
  readFile : String → m (Except String String)
  /-- Gives a file its content. The result may be the reason for which this cannot be done. -/
  writeFile : String → String → m (Except String Unit)
  /-- Picks a number below a positive one. -/
  pick : Nat → m Nat

instance {ε : Type} {m : Type → Type} [Monad m] [Terminal m] : Terminal (ExceptT ε m) where
  print text := ExceptT.lift (Terminal.print text)
  complain text := ExceptT.lift (Terminal.complain text)
  readLine := ExceptT.lift Terminal.readLine
  readFile name := ExceptT.lift (Terminal.readFile name)
  writeFile name content := ExceptT.lift (Terminal.writeFile name content)
  pick count := ExceptT.lift (Terminal.pick count)

structure Desk (F : Type := Directory) where
  /-- The lines that are still to be read. -/
  lines : List String := []
  files : F
  output : String := ""
  errors : String := ""
  /-- The numbers to be picked; when they run out, it is the least number. -/
  picks : List Nat := []

namespace Desk

variable {F : Type}

def ofInput (input : String) (files : F) : Desk F :=
  { lines := (Text.lines input.toList).map String.ofList, files }

instance [FileSystem F] : Terminal (StateM (Desk F)) where
  print text := modify fun d => { d with output := d.output ++ text }
  complain text := modify fun d => { d with errors := d.errors ++ text }
  readLine := modifyGet fun d => (d.lines.head?, { d with lines := d.lines.tail })
  readFile name := do return FileSystem.read (← get).files name
  writeFile name content := modifyGet fun d =>
    let (result, files) := FileSystem.write d.files name content
    (result, { d with files })
  pick count := modifyGet fun d => (d.picks.headD 0 % count, { d with picks := d.picks.tail })

end Desk

end Parley.Player
