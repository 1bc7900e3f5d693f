import Parley.Ink.Output
import Parley.Ink.Place
import Parley.Table

namespace Parley.Ink

/--
Where a datum comes from: a literal of the story, an item of one of its lists, or the evaluation,
which numbers what it makes.
-/
inductive Origin where
  | literal (place : Place)
  | listItem (name : String)
  | made (serial : Nat)
deriving DecidableEq, Repr

/--
A datum as a variable holds it. A variable changes when it gets a datum of another origin.
-/
structure Cell where
  datum : Datum
  origin : Origin
deriving DecidableEq

inductive Operand where
  | cell (c : Cell)
  /-- What a function without a result leaves behind. -/
  | void
  /-- A tag of the choice that is being made. -/
  | tag (text : String)
  | glue
deriving DecidableEq

/--
One call under way. The frame of the story itself is not that of a function.
-/
structure Frame where
  isFunction : Bool := false
  pointer : Option Pointer
  inExpression : Bool := false
  temporaries : Table String Cell := .empty
  /-- The length of the output at the call, until the function writes its first proper text. -/
  outputStart : Option Nat := none

/--
The calls under way, the innermost one first, and the pointer before the current one.
-/
structure Thread where
  top : Frame
  callers : List Frame := []
  previous : Option Pointer := none

/--
A choice on offer, with the calls to which it returns.
-/
structure Offer where
  text : String
  tags : List String
  target : Path
  isInvisibleDefault : Bool
  thread : Thread

structure State where
  thread : Thread
  output : List Output := []
  offers : List Offer := []
  stack : List Operand := []
  diverted : Option Pointer := none
  visits : Table String Nat := .empty
  globals : Table String Cell := .empty
  /-- The values of the declared variables at the start. -/
  defaults : Table String Cell := .empty
  /-- The variables that changed in the current continuation. -/
  changed : List String := []
  endsSafely : Bool := false
  errors : List String := []
  warnings : List String := []
  /-- The number of the next datum that is made. -/
  serial : Nat := 0

namespace State

def startFrame : Frame := { pointer := some (.startOf []) }

def blank : State := { thread := { top := startFrame } }

def pointer (s : State) : Option Pointer := s.thread.top.pointer

def mapTop (s : State) (f : Frame → Frame) : State :=
  { s with thread := { s.thread with top := f s.thread.top } }

def goTo (s : State) (pointer : Option Pointer) : State :=
  s.mapTop ({ · with pointer })

def canContinue (s : State) : Bool :=
  s.pointer.isSome && s.errors.isEmpty

/--
The choices on offer. There are none as long as there is more to run.
-/
def currentOffers (s : State) : List Offer :=
  if s.canContinue then [] else s.offers

def visibleOffers (s : State) : List Offer :=
  s.currentOffers.filter fun offer => !offer.isInvisibleDefault

def forceEnd (s : State) : State :=
  { s with
    thread := { top := { startFrame with pointer := none } }
    offers := []
    endsSafely := true }

/--
The state with an error or a warning, which names the current item. An error ends the story.
-/
def complain (s : State) (root : Node) (isWarning : Bool) (message : String) : State :=
  let kind := if isWarning then "WARNING" else "ERROR"
  let text :=
    match s.pointer with
    | some p => "RUNTIME " ++ kind ++ ": (" ++ p.text root ++ "): " ++ message
    | none => "RUNTIME " ++ kind ++ ": " ++ message
  if isWarning then
    { s with warnings := s.warnings ++ [text] }
  else
    { s with errors := s.errors ++ [text] }.forceEnd

def visit (s : State) (root : Node) (place : Place) (atStart : Bool) : State :=
  match root.at? place with
  | some (.container _ counting _ _) =>
    if counting.visits && (!counting.onlyAtStart || atStart) then
      { s with visits := s.visits.update (root.pathText place) 0 (· + 1) }
    else
      s
  | _ => s

def visitsAt (s : State) (root : Node) (place : Place) : Nat :=
  match root.at? place with
  | some (.container _ counting _ _) =>
    if counting.visits then (s.visits.get? (root.pathText place)).getD 0 else 0
  | _ => 0

def enclosing : Place → List Place
  | [] => []
  | _ :: outer => outer :: enclosing outer

/--
Counts the visits to the containers that a jump from `previous` newly enters. The jump counts as a
start of a container when it leads to its first item.
-/
def visitEntered (s : State) (root : Node) (previous : Option Pointer) : State :=
  match s.pointer with
  | none => s
  | some p =>
    match p.index, p.place? root with
    | some _, some place => go (opened previous) s place true (enclosing place)
    | _, _ => s
where
  /-- The containers that were open before. -/
  opened : Option Pointer → List Place
    | none => []
    | some p =>
      match p.place? root with
      | some place =>
        if root.hasContainer place then place :: enclosing place
        else p.container :: enclosing p.container
      | none => p.container :: enclosing p.container
  isAtStartOnly (place : Place) : Bool :=
    match root.at? place with
    | some (.container _ counting _ _) => counting.onlyAtStart
    | _ => false
  go (opened : List Place) (s : State) (child : Place) (atStart : Bool) : List Place → State
    | [] => s
    | container :: outer =>
      if opened.contains container && !isAtStartOnly container then
        s
      else
        let atStart := atStart && child.head? = some (.index 0)
        go opened (s.visit root container atStart) container atStart outer

/--
The state after a choice of where to go on. Choices that are on offer are withdrawn.
-/
def choosePath (s : State) (root : Node) (path : Path) : Except String State := do
  let s := { s with offers := [] }
  let pointer ← Pointer.ofPath root path
  let pointer := pointer.map fun p => { p with index := some (p.index.getD 0) }
  return (s.goTo pointer).visitEntered root s.thread.previous

def global? (s : State) (name : String) : Option Cell :=
  (s.globals.get? name).orElse fun _ => s.defaults.get? name

/--
The datum that goes by a name: that of a global variable, an item of a list, or that of a temporary
variable of the current call.
-/
def lookup (s : State) (lists : Lists) (name : String) : Option Cell :=
  (s.global? name) <|>
  ((lists.item? name).map fun item => ⟨.list [item], .listItem item.fullName⟩) <|>
  (s.thread.top.temporaries.get? name)

def make (s : State) (datum : Datum) : Cell × State :=
  (⟨datum, .made s.serial⟩, { s with serial := s.serial + 1 })

/--
Gives a datum to a global variable. The flag says whether the variable changed.
-/
def setGlobal (s : State) (name : String) (cell : Cell) : Bool × State :=
  let isSame := (s.globals.get? name).any (·.origin = cell.origin)
  (!isSame, { s with globals := s.globals.set name cell })

def assign (s : State) (a : Assignment) (isGlobal : Bool) (cell : Cell) : Except String State :=
  if isGlobal then
    let (isChanged, s) := s.setGlobal a.name cell
    .ok (if isChanged && !s.changed.contains a.name then
      { s with changed := s.changed ++ [a.name] }
    else
      s)
  else if a.isNew || s.thread.top.temporaries.contains a.name then
    .ok (s.mapTop fun frame => { frame with temporaries := frame.temporaries.set a.name cell })
  else
    .error ("Could not find temporary variable to set: " ++ a.name)

/--
Notes that all functions up to the next frame of another kind have written proper text.
-/
def functionsHaveWritten (s : State) : State :=
  if s.thread.top.isFunction then
    let mark (frame : Frame) : Frame := { frame with outputStart := none }
    let inner := s.thread.callers.takeWhile (·.isFunction)
    let outer := s.thread.callers.dropWhile (·.isFunction)
    { s with
      thread := { s.thread with top := mark s.thread.top, callers := inner.map mark ++ outer } }
  else
    s

def writeText (s : State) (text : String) : State :=
  (Output.split text).foldl (fun s part =>
    let start := if s.thread.top.isFunction then s.thread.top.outputStart else none
    let (output, hasWritten) := Output.addText start part s.output
    let s := { s with output }
    if hasWritten then s.functionsHaveWritten else s) s

def write (s : State) (o : Output) : State :=
  { s with output := if o = .glue then Output.addGlue s.output else o :: s.output }

def push (s : State) (operand : Operand) : State :=
  { s with stack := operand :: s.stack }

def call (s : State) : State :=
  let frame : Frame :=
    { isFunction := true, pointer := s.pointer, outputStart := some s.output.length }
  { s with thread := { s.thread with top := frame, callers := s.thread.top :: s.thread.callers } }

/--
Ends the current call of a function, if there is one. Blanks and newlines at the end of what it
wrote are dropped.
-/
def ret? (s : State) : Option State :=
  match s.thread.top.isFunction, s.thread.callers with
  | true, caller :: callers =>
    let start := s.thread.top.outputStart.getD 0
    some { s with
      output := Output.trimEnd (s.output.length - start) s.output
      thread := { s.thread with top := caller, callers } }
  | _, _ => none

end State

end Parley.Ink
