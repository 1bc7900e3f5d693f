import Parley.Program
import Parley.Registry

/-!
This module contains the state of a runner. A runner drives at most one story, keeps the line or the
choices that it showed last, and queues the events that are not yet delivered. A session is a runner
together with the world that its handlers and its story work on.
-/

namespace Parley

structure Runner (S E : Type) where
  story : Option E := none
  paused : Bool := false
  line : Option Line := none
  choices : List Choice := []
  options : LoadOptions := {}
  registry : Registry (Handler S E) := .empty
  pending : List Event := []
  dispatching : Bool := false

namespace Runner

variable {S E : Type}

def status (r : Runner S E) : Status :=
  match r.story, r.paused with
  | none, _ => .idle
  | some _, false => .active
  | some _, true => .paused

section Status

variable {r : Runner S E}

theorem status_congr {r' : Runner S E} (hstory : r.story.isSome = r'.story.isSome)
    (hpaused : r.paused = r'.paused) : r.status = r'.status := by
  unfold status
  rw [hpaused]
  cases hr : r.story with
  | none =>
    cases hr' : r'.story with
    | none => rfl
    | some _ => simp [hr, hr'] at hstory
  | some _ =>
    cases hr' : r'.story with
    | none => simp [hr, hr'] at hstory
    | some _ => cases r'.paused <;> rfl

theorem status_eq_idle : r.status = .idle ↔ r.story = none := by
  unfold status
  cases r.story with
  | none => simp
  | some story => cases r.paused <;> simp

theorem status_eq_active : r.status = .active ↔ r.story.isSome = true ∧ r.paused = false := by
  unfold status
  cases r.story with
  | none => simp
  | some story => cases r.paused <;> simp

theorem status_eq_paused : r.status = .paused ↔ r.story.isSome = true ∧ r.paused = true := by
  unfold status
  cases r.story with
  | none => simp
  | some story => cases r.paused <;> simp

end Status

def clearContent (r : Runner S E) : Runner S E :=
  { r with line := none, choices := [] }

def view (r : Runner S E) : View E :=
  { status := r.status, isPaused := r.paused, line := r.line, choices := r.choices,
    story := r.story, options := r.options }

def tearDown (r : Runner S E) : Runner S E :=
  { r.clearContent with
    story := none, paused := false, registry := r.registry.clear, pending := [] }

end Runner

structure Session (S E : Type) where
  runner : Runner S E
  world : World S

namespace Session

variable {S E : Type}

def record (s : Session S E) (entry : Record) : Session S E :=
  { s with world := s.world.record entry }

def log (s : Session S E) (level : Level) (message : String) : Session S E :=
  { s with world := s.world.log level message }

/--
Logs a refusal as a warning, and the failure of a story as an error.
-/
def report (s : Session S E) (error : RunnerError) : Session S E :=
  match error with
  | .engine _ => s.log .error error.message
  | _ => s.log .warn error.message

def mapRunner (s : Session S E) (f : Runner S E → Runner S E) : Session S E :=
  { s with runner := f s.runner }

/--
Takes over a story and the world that it worked on. Of its journal only the notes are taken over,
since no story can say what a runner did.
-/
def absorb (s : Session S E) (story : E) (world : World S) : Session S E where
  runner := { s.runner with story := some story }
  world := { world with journal := world.journal.filter Record.isNote ++ s.world.journal }

/--
Changes the story behind the runner's back, and says whether there is one.
-/
def touch (s : Session S E) (act : E → World S → E × World S) : Bool × Session S E :=
  match s.runner.story with
  | none => (false, s)
  | some story =>
    let (story, world) := act story s.world.unwritten
    (true, s.absorb story world)

def remember (s : Session S E) (change : S → S) : Session S E :=
  { s with world := { s.world with memory := change s.world.memory } }

def subscribe (s : Session S E) (kind : EventKind) (handler : Handler S E) : Token × Session S E :=
  let (token, registry) := s.runner.registry.subscribe kind handler
  (token, (s.mapRunner ({ · with registry })).record (.subscribed kind token))

def unsubscribe (s : Session S E) (token : Token) : Bool × Session S E :=
  match s.runner.registry.unsubscribe token with
  | (true, registry) => (true, (s.mapRunner ({ · with registry })).record (.unsubscribed token))
  | (false, _) => (false, s)

def enqueue (s : Session S E) (event : Event) : Session S E :=
  (s.mapRunner fun r => { r with pending := r.pending ++ [event] }).record (.emitted event)

def adopt (s : Session S E) (story : E) : Session S E :=
  ((s.mapRunner fun r => { r.clearContent with story := some story, paused := false }).record
    .adopted).log .debug "dialogue started"

/--
Ends a stop: releases whatever story there is.
-/
def release (s : Session S E) : Session S E :=
  ((s.mapRunner fun r => { r.clearContent with story := none, paused := false }).record
    (.stopped s.runner.story.isSome)).log .debug "dialogue stopped"

def tearDown (s : Session S E) : Session S E :=
  (s.mapRunner (·.tearDown)).record .tornDown

def history (s : Session S E) : List Record :=
  s.world.journal.filter (!·.isNote)

end Session

end Parley
