import Parley.World

/-!
This module contains how the history of a runner is read. A history holds the entries of a journal
that say what the runner did, the latest first, so that each reading of it follows from the reading
of what was before and from the latest entry.
-/

namespace Parley

abbrev History := List Record

namespace History

/--
The handlers that are subscribed, in the order of their subscription.
-/
def live : History → List (EventKind × Token)
  | [] => []
  | .subscribed kind token :: past => live past ++ [(kind, token)]
  | .unsubscribed token :: past => (live past).filter (·.2 ≠ token)
  | .tornDown :: _ => []
  | _ :: past => live past

/--
The handlers that are subscribed to one kind of event, in the order of their subscription.
-/
def registered (kind : EventKind) (h : History) : List Token :=
  ((live h).filter (·.1 = kind)).map (·.2)

def subscriptions : History → Nat
  | [] => 0
  | .subscribed .. :: past => subscriptions past + 1
  | _ :: past => subscriptions past

def emitted : History → List Event
  | [] => []
  | .emitted event :: past => emitted past ++ [event]
  | _ :: past => emitted past

/--
The latest event that showed a line or choices, or the end.
-/
def shown : History → Option Event
  | [] => none
  | .emitted (.newLine line) :: _ => some (.newLine line)
  | .emitted (.newChoices choices) :: _ => some (.newChoices choices)
  | .emitted .ended :: _ => some .ended
  | _ :: past => shown past

def offers : History → Nat
  | [] => 0
  | .emitted (.newChoices _) :: past => offers past + 1
  | _ :: past => offers past

def delivered : History → List Event
  | [] => []
  | .delivering event :: past => delivered past ++ [event]
  | _ :: past => delivered past

def pending : History → List Event
  | [] => []
  | .emitted event :: past => pending past ++ [event]
  | .delivering _ :: past => (pending past).tail
  | .tornDown :: _ => []
  | _ :: past => pending past

/--
The moments at which the events that wait for their delivery were emitted, in order.
-/
def queued : History → List History
  | [] => []
  | .emitted event :: past => queued past ++ [.emitted event :: past]
  | .delivering _ :: past => (queued past).tail
  | .tornDown :: _ => []
  | _ :: past => queued past

/--
The moment at which the event of the latest delivery was emitted.
-/
def cause : History → Option History
  | [] => none
  | .delivering _ :: past => (queued past).head?
  | _ :: past => cause past

/--
What happened since the runner was last torn down.
-/
def sinceTearDown (h : History) : History :=
  h.takeWhile (· ≠ .tornDown)

/--
The handlers that were called and have not returned, the innermost one first.
-/
def inProgress : History → List Token
  | [] => []
  | .entered token _ _ :: past => token :: inProgress past
  | .left token :: past => (inProgress past).erase token
  | _ :: past => inProgress past

/--
The event of the latest delivery.
-/
def occasion : History → Option Event
  | [] => none
  | .delivering event :: _ => some event
  | _ :: past => occasion past

/--
Whether an event was emitted while a handler for the end of a session was at work.
-/
def disturbed : History → Bool
  | [] => false
  | .emitted _ :: past =>
    disturbed past || (occasion past = some .stopped && inProgress past ≠ [])
  | _ :: past => disturbed past

/--
The handlers of the latest delivery: those that were subscribed to its event when it began.
-/
def snapshot : History → List Token
  | [] => []
  | .delivering event :: past => registered event.kind past
  | _ :: past => snapshot past

/--
The handlers that were called in the latest delivery, in order.
-/
def called : History → List Token
  | [] => []
  | .delivering _ :: _ => []
  | .entered token _ _ :: past => called past ++ [token]
  | _ :: past => called past

/--
Whether, in the latest delivery, a handler returned before the last one was called and left no
handler of any kind subscribed.
-/
def deserted : History → Bool
  | [] => false
  | .delivering _ :: _ => false
  | .left _ :: past => deserted past || ((live past).isEmpty && called past ≠ snapshot past)
  | _ :: past => deserted past

def active : History → Bool
  | [] => false
  | .adopted :: _ => true
  | .stopped _ :: _ => false
  | .tornDown :: _ => false
  | _ :: past => active past

/--
How many stories were ever made the active one. This is the number of the active story.
-/
def adoptions : History → Nat
  | [] => 0
  | .adopted :: past => adoptions past + 1
  | _ :: past => adoptions past

/--
How often the end of a session was announced since the latest story was made the active one.
-/
def announced : History → Nat
  | [] => 0
  | .adopted :: _ => 0
  | .emitted .stopped :: past => announced past + 1
  | _ :: past => announced past

/--
The stops that have begun and not ended, the innermost one first: each is given by the number of the
story that was active when it began.
-/
def stops : History → List Nat
  | [] => []
  | .stopping :: past => adoptions past :: stops past
  | .stopped _ :: past => (stops past).tail
  | _ :: past => stops past

end History

end Parley
