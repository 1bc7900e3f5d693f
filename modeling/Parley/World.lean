import Parley.Registry
import Parley.Value

namespace Parley

inductive Level where
  | debug
  | warn
  | error
deriving DecidableEq, Repr, Inhabited

def Level.name : Level → String
  | .debug => "DEBUG"
  | .warn => "WARN"
  | .error => "ERROR"

/--
Someone who is told of the changes of variables. Two observers with one label are told apart by
their serial numbers.
-/
structure Observer where
  label : String
  serial : Nat
deriving DecidableEq, Repr, Inhabited

inductive Record where
  | log (level : Level) (message : String)
  /-- A handler was subscribed, under this token. -/
  | subscribed (kind : EventKind) (token : Token)
  /-- The handler of this token was taken out. -/
  | unsubscribed (token : Token)
  /-- An event was queued for its handlers. -/
  | emitted (event : Event)
  /-- An event was taken from the queue. -/
  | delivering (event : Event)
  /-- A handler was called while the runner was in this state. -/
  | entered (token : Token) (event : Event) (status : Status)
  | left (token : Token)
  /-- The body of a host function ran. -/
  | called (function : String) (arguments : List Value) (result : Option Value)
  /-- An observer was told the new value of a variable. -/
  | changed (observer : Observer) (name : String) (value : Value)
  /-- A story became the active one. -/
  | adopted
  /-- A stop of the active story began. -/
  | stopping
  /-- A stop ended. The flag says whether there still was a story that it released. -/
  | stopped (released : Bool)
  | tornDown
  /-- The host wrote a note of its own. -/
  | note (text : String)
deriving DecidableEq

/--
Whether an entry may also be written by a story or the host. All other entries say what a runner
did.
-/
def Record.isNote : Record → Bool
  | .log .. | .called .. | .changed .. | .note _ => true
  | _ => false

/--
The memory of the host and the journal, the latest entry first.
-/
structure World (S : Type) where
  memory : S
  journal : List Record := []

namespace World

variable {S : Type}

def record (w : World S) (entry : Record) : World S :=
  { w with journal := entry :: w.journal }

def log (w : World S) (level : Level) (message : String) : World S :=
  w.record (.log level message)

/--
The world with an empty journal, as it is handed to a story.
-/
def unwritten (w : World S) : World S :=
  { w with journal := [] }

def chronicle (w : World S) : List Record :=
  w.journal.reverse

def notify (w : World S) (observers : List Observer) (name : String) (value : Value) : World S :=
  observers.foldl (fun w observer => w.record (.changed observer name value)) w

@[simp]
theorem record_memory (w : World S) (entry : Record) : (w.record entry).memory = w.memory := rfl

@[simp]
theorem record_journal (w : World S) (entry : Record) :
    (w.record entry).journal = entry :: w.journal := rfl

end World

end Parley
