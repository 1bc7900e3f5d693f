/-!
This module contains the command line of the player: the name of one file, flags in any order, and
`--`, after which nothing is a flag. Arguments are read from left to right and the first one that is
wrong, or that asks for something else than playing, decides.
-/

namespace Parley.Player

inductive Flag where
  /-- The player picks choices by itself. -/
  | auto
  /-- Functions that are not bound are not replaced by the story's own fallbacks. -/
  | strict
  /-- The file holds an asset. -/
  | asset
  | help
  | version
deriving DecidableEq, Repr

def Flag.ofLetter? : Char → Option Flag
  | 'a' => some .auto
  | 'e' => some .strict
  | 'h' => some .help
  | 'V' => some .version
  | _ => none

def Flag.ofWord? : String → Option Flag
  | "asset" => some .asset
  | "help" => some .help
  | "version" => some .version
  | _ => none

inductive Misuse where
  | unknown (argument : String)
  | repeated (flag : Flag)
  /-- A flag is followed by an equals sign. -/
  | valued (flag : Flag)
  /-- There is a second file. -/
  | surplus (argument : String)
  | missingFile
deriving DecidableEq, Repr

def Flag.text : Flag → String
  | .auto => "-a"
  | .strict => "-e"
  | .asset => "--asset"
  | .help => "--help"
  | .version => "--version"

def Misuse.message : Misuse → String
  | .unknown argument => "unexpected argument `" ++ argument ++ "`"
  | .repeated flag => "the flag `" ++ flag.text ++ "` cannot be used twice"
  | .valued flag => "the flag `" ++ flag.text ++ "` takes no value"
  | .surplus argument => "unexpected argument `" ++ argument ++ "`"
  | .missingFile => "the name of a file is missing"

structure Settings where
  file : String
  auto : Bool := false
  strict : Bool := false
  asset : Bool := false
deriving DecidableEq, Repr

inductive Request where
  | play (settings : Settings)
  | help
  | version
  | misuse (misuse : Misuse)
deriving DecidableEq, Repr

structure Draft where
  file : Option String := none
  flags : List Flag := []

namespace Draft

def addFlag (d : Draft) : Flag → Except Request Draft
  | .help => .error .help
  | .version => .error .version
  | flag =>
    if d.flags.contains flag then
      .error (.misuse (.repeated flag))
    else
      .ok { d with flags := flag :: d.flags }

/--
Takes the flags of an argument with one hyphen, each by its letter.
-/
def addLetters (d : Draft) (letters : List Char) : Except Request Draft :=
  letters.foldlM (fun d c =>
    match Flag.ofLetter? c with
    | some flag => d.addFlag flag
    | none => .error (.misuse (.unknown (String.ofList ['-', c])))) d

def addWord (d : Draft) (content : List Char) : Except Request Draft :=
  match Flag.ofWord? (String.ofList (content.takeWhile (· ≠ '='))) with
  | none => .error (.misuse (.unknown (String.ofList ('-' :: '-' :: content))))
  | some flag =>
    if content.contains '=' then .error (.misuse (.valued flag)) else d.addFlag flag

def addFile (d : Draft) (name : String) : Except Request Draft :=
  match d.file with
  | none => .ok { d with file := some name }
  | some _ => .error (.misuse (.surplus name))

/--
Takes arguments. A hyphen alone is the name of a file.
-/
def addAll (d : Draft) : List String → Except Request Draft
  | [] => .ok d
  | argument :: rest =>
    match argument.toList with
    | ['-', '-'] => rest.foldlM addFile d
    | '-' :: '-' :: content => do (← d.addWord content).addAll rest
    | '-' :: c :: letters => do (← d.addLetters (c :: letters)).addAll rest
    | _ => do (← d.addFile argument).addAll rest

def request (d : Draft) : Request :=
  match d.file with
  | none => .misuse .missingFile
  | some file =>
    let has (flag : Flag) : Bool := d.flags.contains flag
    .play { file, auto := has .auto, strict := has .strict, asset := has .asset }

end Draft

def Request.ofArguments (arguments : List String) : Request :=
  match Draft.addAll {} arguments with
  | .ok draft => draft.request
  | .error request => request

end Parley.Player
