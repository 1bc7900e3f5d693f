import Parley.Text.Blank

namespace Parley.Player

inductive Command where
  /-- Takes the choice at a position, counted from zero. -/
  | choose (index : Nat)
  | exit
  | help
  | load (file : String)
  | save (file : String)
  | reset
  | rewind
deriving DecidableEq, Repr

inductive Refusal where
  | outOfRange
  | badFileName
  | unrecognized
deriving DecidableEq, Repr

def Refusal.message : Refusal → String
  | .outOfRange => "option out of range"
  | .badFileName => "incorrect filename"
  | .unrecognized => "unrecognized option or command"

inductive Entry where
  | blank
  | refused (refusal : Refusal)
  | accepted (command : Command)
deriving DecidableEq, Repr

def numberLimit : Nat := 0x10000000000000000

def digitsValue (digits : List Char) : Nat :=
  digits.foldl (fun n c => 10 * n + (c.toNat - '0'.toNat)) 0

/--
The number of a choice: decimal digits, perhaps after a plus sign, below the limit.
-/
def numberOf? (word : List Char) : Option Nat :=
  let digits :=
    match word with
    | '+' :: digits => digits
    | digits => digits
  if digits.isEmpty || !digits.all Char.isDigit then
    none
  else if digitsValue digits < numberLimit then
    some (digitsValue digits)
  else
    none

/--
The command of some words. The first word is read without regard to case; what comes after it counts
only for the commands that need the name of a file.
-/
def Entry.ofWords : List (List Char) → Entry
  | [] => .blank
  | word :: rest =>
    match String.ofList (word.map Char.toLower) with
    | "exit" | "quit" => .accepted .exit
    | "help" => .accepted .help
    | "reset" => .accepted .reset
    | "rewind" => .accepted .rewind
    | "load" =>
      match rest with
      | [file] => .accepted (.load (String.ofList file))
      | _ => .refused .badFileName
    | "save" =>
      match rest with
      | [file] => .accepted (.save (String.ofList file))
      | _ => .refused .badFileName
    | _ => .refused .unrecognized

/--
What a line comes to when there are `count` choices. White space at its ends does not count.
-/
def Entry.ofLine (count : Nat) (line : List Char) : Entry :=
  let content := Text.trim line
  match numberOf? content with
  | none => .ofWords (Text.words content)
  | some n => if 1 ≤ n ∧ n ≤ count then .accepted (.choose (n - 1)) else .refused .outOfRange

end Parley.Player
