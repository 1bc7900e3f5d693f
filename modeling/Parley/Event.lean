import Parley.Dialogue

namespace Parley

inductive EventKind where
  /-- A story was started. -/
  | started
  /-- The story was reset to its beginning. -/
  | restarted
  /-- The story is about to be released. -/
  | stopped
  | paused
  | resumed
  /-- There are no more lines and no choices. -/
  | ended
  | newLine
  | newChoices
deriving DecidableEq, Repr, Inhabited

def EventKind.all : List EventKind :=
  [.started, .restarted, .stopped, .paused, .resumed, .ended, .newLine, .newChoices]

theorem EventKind.mem_all (kind : EventKind) : kind ∈ EventKind.all := by
  cases kind <;> simp [all]

def EventKind.name : EventKind → String
  | .started => "Started"
  | .restarted => "Restarted"
  | .stopped => "Stopped"
  | .paused => "Paused"
  | .resumed => "Resumed"
  | .ended => "Ended"
  | .newLine => "NewLine"
  | .newChoices => "NewChoices"

inductive Event where
  | started
  | restarted
  | stopped
  | paused
  | resumed
  | ended
  | newLine (line : Line)
  | newChoices (choices : List Choice)
deriving DecidableEq, Repr, Inhabited

def Event.kind : Event → EventKind
  | .started => .started
  | .restarted => .restarted
  | .stopped => .stopped
  | .paused => .paused
  | .resumed => .resumed
  | .ended => .ended
  | .newLine _ => .newLine
  | .newChoices _ => .newChoices

inductive Status where
  | idle
  | active
  /-- There is a story, but it does not go on until it is resumed. -/
  | paused
deriving DecidableEq, Repr, Inhabited

def Status.name : Status → String
  | .idle => "Idle"
  | .active => "Active"
  | .paused => "Paused"

end Parley
