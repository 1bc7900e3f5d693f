import Parley.Engine
import Parley.Script.State

/-!
This module contains scripted stories: knots of steps that are played one after the other. All steps
but lines and choices are taken on the way to the next line.
-/

namespace Parley.Script

inductive Step where
  | line (line : Line)
  /-- Texts to choose from, each with the knot that it leads to. -/
  | choices (options : List (String × Nat))
  | set (name : String) (value : Value)
  /-- Calls a function and stores what it returns. -/
  | call (function : String) (arguments : List Value) (target : Option String)
  /-- Tells the host a message. -/
  | report (message : String) (severity : Severity)
deriving DecidableEq

/--
A scripted story with its state, the observers of its variables and the functions bound to it. For
each function there is a flag that says whether it may be called ahead of time.
-/
structure Story (S : Type) where
  knots : List (List Step)
  defaults : Table String Value
  state : State
  observers : Table String (List Observer) := .empty
  functions : Table String (Function S × Bool) := .empty

namespace Story

variable {S : Type}

def initial (defaults : Table String Value) : State :=
  { values := defaults }

def new (defaults : Table String Value) (knots : List (List Step)) : Story S :=
  { knots, defaults, state := initial defaults }

def upcoming (s : Story S) : List Step :=
  (s.knots.getD s.state.knot []).drop s.state.step

def next (s : Story S) : Story S :=
  { s with state := { s.state with step := s.state.step + 1 } }

def assign (s : Story S) (name : String) (value : Value) (w : World S) : Story S × World S :=
  ({ s with state := { s.state with values := s.state.values.set name value } },
    w.notify ((s.observers.get? name).getD []) name value)

def assignResult (s : Story S) (target : Option String) (result : Option Value) (w : World S) :
    Story S × World S :=
  match target, result with
  | some name, some value => s.assign name value w
  | _, _ => (s, w)

def levelOf : Severity → Level
  | .warning => .warn
  | .error => .error

/--
Takes the steps that are given, which are the upcoming ones, up to the next line.
-/
def play (s : Story S) (w : World S) : List Step → Except EngineError Line × Story S × World S
  | .line line :: _ => (.ok line, s.next, w)
  | .set name value :: rest =>
    let (s, w) := s.assign name value w
    play s.next w rest
  | .call name arguments target :: rest =>
    match s.functions.get? name with
    | none => (.error (.runtime ("function `" ++ name ++ "` is not bound")), s, w)
    | some (function, _) =>
      let (result, w) := function.call arguments w
      let (s, w) := s.assignResult target result w
      play s.next w rest
  | .report message severity :: rest => play s.next (w.log (levelOf severity) message) rest
  | [] | .choices _ :: _ =>
    (.error (.runtime "can't continue, there is no more content"), s, w)

def options (s : Story S) : List (String × Nat) :=
  match s.upcoming with
  | .choices options :: _ => options
  | _ => []

def canContinue (s : Story S) : Bool :=
  match s.upcoming with
  | [] | .choices _ :: _ => false
  | _ => true

def choose (s : Story S) (index : Nat) : Except EngineError Unit × Story S :=
  match s.options[index]? with
  | none => (.error (.runtime "choice out of range"), s)
  | some (_, knot) =>
    (.ok (), { s with state := { s.state with
      knot, step := 0, visits := s.state.visits.update knot 0 (· + 1) } })

/--
Takes over the state of a text. A text that holds none changes nothing.
-/
def load (s : Story S) (text : String) : Except EngineError Unit × Story S :=
  match State.ofText? text with
  | .ok state => (.ok (), { s with state })
  | .error fault => (.error (.runtime fault.message), s)

def lookaheadSafe? (s : Story S) (name : String) : Option Bool :=
  (s.functions.get? name).map (·.2)

instance : Engine S (Story S) where
  canContinue := canContinue
  continueOne s w := s.play w s.upcoming
  choices s := Choice.numbered (s.options.map (·.1))
  choose := choose
  reset s w := (.ok (), { s with state := initial s.defaults }, w)
  rewind s := (.ok (), { s with state := { s.state with knot := 0, step := 0 } })
  scalar? s name := s.state.values.get? name
  hasVariable s name := s.state.values.contains name
  setVariable s name value w :=
    let (s, w) := s.assign name value w
    (.ok (), s, w)
  observe s name observer :=
    (.ok (), { s with observers := s.observers.update name [] (· ++ [observer]) })
  bind s function lookaheadSafe :=
    (.ok (), { s with functions := s.functions.set function.name (function, lookaheadSafe) })
  save s := .ok s.state.text
  load := load

end Story

end Parley.Script
