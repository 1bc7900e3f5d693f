import Parley.Session.Step
import Parley.Session.Snapshot
import Parley.Session.Variables

/-!
This module contains the running of programs. An event that is emitted outside of any handler is
delivered at once, and so are, one after the other, the events that its handlers cause; an event
that is emitted by a handler waits in the queue. Delivery may go on for ever, so it takes a bound on
the number of events and a run that exceeds it has no result.
-/

namespace Parley

/--
A computation on a session that may run out of its bound. It then has no result, and the session is
as it was when that happened.
-/
abbrev Run (S E α : Type) := OptionT (StateM (Session S E)) α

namespace Run

variable {S E : Type} [Engine S E]

def report (error : RunnerError) : Run S E Unit :=
  modify (·.report error)

def reporting (result : Except RunnerError Unit) : Run S E Unit :=
  match result with
  | .ok _ => pure ()
  | .error error => report error

section Operations

variable (emit : Event → Run S E Unit)

/--
Goes on by one step and emits what it showed. A paused runner stays where it is.
-/
def tryAdvance : Run S E (Except RunnerError Unit) := do
  let s ← get
  if s.runner.paused then
    return .ok ()
  match s.step with
  | (.error error, s) =>
    set s
    return .error error
  | (.ok event, s) =>
    set s
    emit event
    return .ok ()

def advance : Run S E Unit := do
  reporting (← tryAdvance emit)

/--
Takes a choice and, if asked to, goes on. A paused runner stays where it is.
-/
def tryChoose (index : Nat) (autoAdvance : Bool) : Run S E (Except RunnerError Unit) := do
  let s ← get
  if s.runner.paused then
    return .ok ()
  match s.commit index with
  | (.error error, s) =>
    set s
    return .error error
  | (.ok _, s) =>
    set s
    if autoAdvance then tryAdvance emit else return .ok ()

def start (story : E) (autoAdvance : Bool) : Run S E Unit := do
  let s ← get
  if s.runner.story.isSome then
    report .alreadyActive
  else
    set (s.adopt story)
    emit .started
    if autoAdvance then
      advance emit

def reset : Run S E Unit := do
  let s ← get
  match s.runner.story with
  | none => return
  | some story =>
    match Engine.reset story s.world.unwritten with
    | (.error error, story, world) =>
      set (s.absorb story world)
      report (.engine error)
    | (.ok _, story, world) =>
      set (((s.absorb story world).mapRunner ({ ·.clearContent with paused := false })).log .debug
        "dialogue restarted")
      emit .restarted

/--
Goes back to the start of the story. Line and choices go away in any case.
-/
def rewind : Run S E Unit := do
  let s ← get
  match s.runner.story with
  | none => return
  | some story =>
    let (result, story) := Engine.rewind story
    set (s.mapRunner fun r => { r.clearContent with story := some story })
    reporting (result.mapError .engine)

def pause : Run S E Unit := do
  let s ← get
  if s.runner.status = .active then
    set (s.mapRunner ({ · with paused := true }))
    emit .paused

def resume : Run S E Unit := do
  let s ← get
  if s.runner.status = .paused then
    set (s.mapRunner ({ · with paused := false }))
    emit .resumed

/--
Announces the end of the session and then releases whatever story there is.
-/
def stop : Run S E Unit := do
  if (← get).runner.story.isSome then
    modify (·.record .stopping)
    emit .stopped
    modify (·.release)

def operation : (operation : Operation S E) → Run S E operation.Reply
  | .advance => advance emit
  | .tryAdvance => tryAdvance emit
  | .choose index autoAdvance => do reporting (← tryChoose emit index autoAdvance)
  | .tryChoose index autoAdvance => tryChoose emit index autoAdvance
  | .start story autoAdvance => start emit story autoAdvance
  | .reset => reset emit
  | .rewind => rewind
  | .pause => pause emit
  | .resume => resume emit
  | .stop => stop emit
  | .tearDown => modify (·.tearDown)
  | .unsubscribe token => modifyGet (·.unsubscribe token)
  | .setVariable name value => modify (·.setVariable name value)
  | .trySetVariable name value => modifyGet (·.trySetVariable name value)
  | .readVariable name kind => modifyGet (·.readVariable name kind)
  | .tryReadVariable name kind => do return (← get).tryReadVariable name kind
  | .variableValue name => do return (← get).variableValue name
  | .observe name observer => modify (·.observe name observer)
  | .observeAll names observer => modify (·.observeAll names observer)
  | .bind function lookaheadSafe => modify (·.bind function lookaheadSafe)
  | .save => modifyGet (·.save)
  | .load text => modifyGet (·.load text)
  | .look => do return (← get).runner.view
  | .touch act => modifyGet (·.touch act)
  | .recall => do return (← get).world.memory
  | .remember change => modify (·.remember change)
  | .note text => modify (·.record (.note text))
  | .log level message => modify (·.log level message)

def program : Program S E → Run S E Unit
  | .done => pure ()
  | .perform request next => do
    let reply ← operation emit request
    program (next reply)
  | .subscribe kind handler next => do
    let token ← modifyGet (·.subscribe kind handler)
    program (next token)

end Operations

/--
Calls the handlers of an event, in order, until there is no handler left in the registry.
-/
def deliver (run : Program S E → Run S E Unit) (event : Event) :
    List (Token × Handler S E) → Run S E Unit
  | [] => pure ()
  | (token, handler) :: rest => do
    modify fun s => s.record (.entered token event s.runner.status)
    run (handler event)
    modify (·.record (.left token))
    if (← get).runner.registry.isEmpty then
      return
    deliver run event rest

/--
Queues an event. If no delivery is under way, all queued events are delivered now.
-/
def emitWith (drain : Run S E Unit) (event : Event) : Run S E Unit := do
  modify (·.enqueue event)
  if (← get).runner.dispatching then
    return
  modify (·.mapRunner ({ · with dispatching := true }))
  drain
  modify (·.mapRunner ({ · with dispatching := false }))

/--
Delivers the queued events, fewer than `bound` of them. The handlers of an event are those that are
subscribed when its delivery begins.
-/
def drain (bound : Nat) : Run S E Unit :=
  match bound with
  | 0 => failure
  | bound + 1 => do
    let s ← get
    match s.runner.pending with
    | [] => pure ()
    | event :: rest =>
      set ((s.mapRunner ({ · with pending := rest })).record (.delivering event))
      deliver (program (emitWith (drain bound))) event (s.runner.registry.handlers event.kind)
      drain bound

end Run

namespace Session

variable {S E : Type} [Engine S E]

def new (options : LoadOptions) (memory : S) : Session S E :=
  ⟨{ options }, ⟨memory, []⟩⟩

/--
Runs a program from outside of any handler, as far as it gets: there is no result when one of its
requests causes `bound` events or more.
-/
def run (s : Session S E) (bound : Nat) (program : Program S E) : Option Unit × Session S E :=
  (Run.program (Run.emitWith (Run.drain bound)) program).run.run s

def run? (s : Session S E) (bound : Nat) (program : Program S E) : Option (Session S E) :=
  match s.run bound program with
  | (some _, s) => some s
  | (none, _) => none

end Session

end Parley
