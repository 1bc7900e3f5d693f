import Parley.Player.Play

open Parley

instance : Player.Terminal IO where
  print text := do
    let output ← IO.getStdout
    output.putStr text
    output.flush
  complain text := IO.eprint text
  readLine := do
    let line ← (← IO.getStdin).getLine
    return if line.isEmpty then none else some line
  readFile name := do
    try
      return .ok (← IO.FS.readFile name)
    catch error =>
      return .error (toString error)
  writeFile name content := do
    try
      IO.FS.writeFile name content
      return .ok ()
    catch error =>
      return .error (toString error)
  pick count := IO.rand 0 (count - 1)

/--
More events, or commands, than anyone will see.
-/
def ampleBound : Nat := 1000000000000000000

def main (arguments : List String) : IO UInt32 := do
  return (← Player.run arguments ampleBound).toUInt32
