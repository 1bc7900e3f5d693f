import Parley.Dispatch

/-!
This module contains runs of programs move by move. A program looks at a session only between two
moves, so that the sessions that a run goes through from move to move are all that its host and its
handlers can see. That a run and its course come to the same end is shown where runs are.
-/

namespace Parley

inductive Move (S E : Type) where
  /-- A request was done, and the events that it emitted were queued. -/
  | perform (operation : Operation S E)
  | subscribe (kind : EventKind) (handler : Handler S E)
  /-- A stop from outside of any handler announced the end of the session. -/
  | announce
  /-- A stop from outside of any handler released the story. -/
  | release
  /-- A delivery of all queued events began or ended. -/
  | dispatch (underway : Bool)
  /-- The next event was taken from the queue. -/
  | take
  | enter (token : Token) (event : Event)
  | leave (token : Token)

namespace Session

variable {S E : Type} [Engine S E]

/--
Does what a request asks for and queues the events that it emits, as long as another delivery is
under way.
-/
def perform (s : Session S E) (operation : Operation S E) : Option operation.Reply × Session S E :=
  (Run.operation (fun event => modify (·.enqueue event)) operation).run.run s

def announce (s : Session S E) : Session S E :=
  (s.record .stopping).enqueue .stopped

def dispatch (s : Session S E) (underway : Bool) : Session S E :=
  s.mapRunner ({ · with dispatching := underway })

def take (s : Session S E) : Session S E :=
  match s.runner.pending with
  | [] => s
  | event :: rest => (s.mapRunner ({ · with pending := rest })).record (.delivering event)

def enter (s : Session S E) (token : Token) (event : Event) : Session S E :=
  s.record (.entered token event s.runner.status)

def leave (s : Session S E) (token : Token) : Session S E :=
  s.record (.left token)

def move (s : Session S E) : Move S E → Session S E
  | .perform operation => (s.perform operation).2
  | .subscribe kind handler => (s.subscribe kind handler).2
  | .announce => s.announce
  | .release => s.release
  | .dispatch underway => s.dispatch underway
  | .take => s.take
  | .enter token event => s.enter token event
  | .leave token => s.leave token

end Session

/--
The session in which a run began and the moves that it has made, the latest first.
-/
structure Course (S E : Type) where
  start : Session S E
  moves : List (Move S E) := []

namespace Course

variable {S E : Type} [Engine S E]

def now (c : Course S E) : Session S E :=
  c.moves.foldr (fun move s => s.move move) c.start

def push (c : Course S E) (move : Move S E) : Course S E :=
  { c with moves := move :: c.moves }

def Extends (c past : Course S E) : Prop :=
  past.start = c.start ∧ past.moves <:+ c.moves

omit [Engine S E] in
theorem extends_start {s : Session S E} {past : Course S E}
    : (⟨s, []⟩ : Course S E).Extends past ↔ past = ⟨s, []⟩ := by
  obtain ⟨start, moves⟩ := past
  unfold Extends
  rw [List.suffix_nil, Course.mk.injEq]

omit [Engine S E] in
theorem extends_push {c past : Course S E} {move : Move S E}
    : (c.push move).Extends past ↔ past = c.push move ∨ c.Extends past := by
  obtain ⟨start, moves⟩ := past
  unfold Extends push
  rw [List.suffix_cons_iff, Course.mk.injEq, and_or_left]

@[simp]
theorem now_push (c : Course S E) (move : Move S E) : (c.push move).now = c.now.move move := rfl

end Course

/--
A computation that writes down each of its moves. Like a run it may run out of its bound.
-/
abbrev Walk (S E α : Type) := OptionT (StateM (Course S E)) α

namespace Walk

variable {S E : Type} [Engine S E]

def look : Walk S E (Session S E) := do
  return (← get).now

def move (move : Move S E) : Walk S E Unit :=
  modify (·.push move)

def perform (operation : Operation S E) : Walk S E operation.Reply := do
  let s ← look
  move (.perform operation)
  match (s.perform operation).1 with
  | some reply => return reply
  | none => failure

section Program

variable (request : (operation : Operation S E) → Walk S E operation.Reply)

def program : Program S E → Walk S E Unit
  | .done => pure ()
  | .perform operation next => do
    let reply ← request operation
    program (next reply)
  | .subscribe kind handler next => do
    let s ← look
    move (.subscribe kind handler)
    program (next (s.subscribe kind handler).1)

end Program

def deliver (event : Event) : List (Token × Handler S E) → Walk S E Unit
  | [] => pure ()
  | (token, handler) :: rest => do
    move (.enter token event)
    program perform (handler event)
    move (.leave token)
    if (← look).runner.registry.isEmpty then
      return
    deliver event rest

def drain (bound : Nat) : Walk S E Unit :=
  match bound with
  | 0 => failure
  | bound + 1 => do
    let s ← look
    match s.runner.pending with
    | [] => pure ()
    | event :: _ =>
      move .take
      deliver event (s.runner.registry.handlers event.kind)
      drain bound

def settle (bound : Nat) : Walk S E Unit := do
  if (← look).runner.pending.isEmpty then
    return
  move (.dispatch true)
  drain bound
  move (.dispatch false)

/--
Does a request from outside of any handler. Only a stop and the start of a story have something left
to do after a delivery.
-/
def request (bound : Nat) : (operation : Operation S E) → Walk S E operation.Reply
  | .stop => do
    if (← look).runner.story.isSome then
      move .announce
      settle bound
      move .release
  | .start story autoAdvance => do
    let s ← look
    perform (.start story false)
    settle bound
    if autoAdvance && s.runner.story.isNone then
      perform .advance
      settle bound
  | operation => do
    let reply ← perform operation
    settle bound
    return reply

end Walk

namespace Session

variable {S E : Type} [Engine S E]

def course (s : Session S E) (bound : Nat) (program : Program S E) : Course S E :=
  ((Walk.program (Walk.request bound) program).run.run ⟨s, []⟩).2

end Session

end Parley
