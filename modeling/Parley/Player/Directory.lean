import Parley.Table
import Parley.Text.Lines

/-!
This module contains the files of a player. `FileSystem` is the class of the types of all that is
stored under the names of files, and `Directory` is the simplest of them.
-/

namespace Parley.Player

class FileSystem (F : Type) where
  /-- The content of a file, or the reason for which it cannot be read. -/
  read : F → String → Except String String
  /-- Gives a file its content. If this cannot be done, there is a reason, and a part may have been
  done. -/
  write : F → String → String → Except String Unit × F

/--
Files that are all in one directory and can all be read and written.
-/
abbrev Directory := Table String String

namespace Directory

/--
The longest name that a file can have, in bytes.
-/
def nameLimit : Nat := 255

def isFileName (text : String) : Bool :=
  text ≠ "" && text ≠ "." && text ≠ ".." && text.utf8ByteSize ≤ nameLimit &&
    !text.toList.contains '\x00'

/--
The file that a name stands for, if it can be one of the directory. Steps that stay in the directory
may come before it, so that `./file` is `file`; other names that hold a slash stand for no file.
-/
def fileOf? (name : String) : Option String :=
  let parts := Text.parts '/' name
  match parts, parts.getLast? with
  | "" :: _ :: _, _ => none
  | _, none => none
  | _, some file =>
    if parts.dropLast.all (fun part => part = "" || part = ".") && isFileName file then
      some file
    else
      none

def noSuchFile : String := "No such file or directory"

instance : FileSystem Directory where
  read files name := (((fileOf? name).bind files.get?).map Except.ok).getD (.error noSuchFile)
  write files name content :=
    match fileOf? name with
    | none => (.error noSuchFile, files)
    | some file => (.ok (), files.set file content)

end Directory

end Parley.Player
