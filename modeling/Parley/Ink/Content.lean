import Parley.Ink.Lists
import Parley.Ink.Path
import Parley.Value

namespace Parley.Ink

/--
What a variable of a story may hold: a scalar, a place to go to, or a selection of items of lists.
-/
inductive Datum where
  | scalar (v : Value)
  | target (path : Path)
  | list (items : Selection)
deriving DecidableEq

namespace Datum

def text : Datum → String
  | .scalar v => v.text
  | .target path => "DivertTargetValue(" ++ path.text ++ ")"
  | .list items => items.text

def scalar? : Datum → Option Value
  | .scalar v => some v
  | _ => none

end Datum

inductive Command where
  /-- Starts an expression, whose items go to the stack. -/
  | startExpression
  | endExpression
  /-- Writes the top of the stack. -/
  | write
  | drop
  /-- Returns from a function. -/
  | ret
  /-- Starts a text inside of an expression. -/
  | startString
  | endString
  | startTag
  | endTag
  /-- Ends the current branch of the story. -/
  | done
  | stop
deriving DecidableEq, Repr

namespace Command

def tokens : List (String × Command) :=
  [("ev", .startExpression), ("/ev", .endExpression), ("out", .write), ("pop", .drop),
    ("~ret", .ret), ("str", .startString), ("/str", .endString), ("#", .startTag), ("/#", .endTag),
    ("done", .done), ("end", .stop)]

end Command

inductive Operator where
  | add
  | subtract
  | multiply
  | divide
  | remainder
  | equal
  | notEqual
  | greater
  | less
  | atLeast
  | atMost
  | not
  | and
  | or
deriving DecidableEq, Repr

namespace Operator

def tokens : List (String × Operator) :=
  [("+", .add), ("-", .subtract), ("*", .multiply), ("/", .divide), ("%", .remainder),
    ("==", .equal), ("!=", .notEqual), (">", .greater), ("<", .less), (">=", .atLeast),
    ("<=", .atMost), ("!", .not), ("&&", .and), ("||", .or)]

def token (o : Operator) : String :=
  ((tokens.find? (·.2 = o)).map (·.1)).getD ""

def arity : Operator → Nat
  | .not => 1
  | _ => 2

end Operator

inductive Destination where
  | path (path : Path)
  /-- The place in a variable. -/
  | stored (name : String)
  /-- A function of the host, which goes by the shortest text of a path in the divert. -/
  | host (function : Path) (arguments : Nat)
deriving DecidableEq, Repr

/--
A jump to another place. A conditional one takes its condition from the stack, and one that is a
call comes back.
-/
structure Divert where
  destination : Destination
  isConditional : Bool
  isCall : Bool
deriving DecidableEq, Repr

structure ChoicePoint where
  path : Path
  hasCondition : Bool
  hasStartContent : Bool
  hasChoiceOnlyContent : Bool
  isInvisibleDefault : Bool
  isOnceOnly : Bool
deriving DecidableEq, Repr

structure Assignment where
  name : String
  isGlobal : Bool
  isNew : Bool
deriving DecidableEq, Repr

inductive Item where
  | text (s : String)
  /-- Joins the texts around it into one line. -/
  | glue
  | void
  | literal (d : Datum)
  | command (c : Command)
  | operator (o : Operator)
  | divert (d : Divert)
  | choicePoint (c : ChoicePoint)
  | read (name : String)
  /-- How often a container was visited. -/
  | visits (path : Path)
  | assign (a : Assignment)
deriving DecidableEq

structure Counting where
  visits : Bool
  onlyAtStart : Bool
deriving DecidableEq, Repr

/--
A node of the tree of content. A container holds nodes in order, and others that are only reached by
their names.
-/
inductive Node where
  | item (item : Item)
  | container (name : Option String) (counting : Counting) (content : List Node)
      (named : List (String × Node))

namespace Node

def content : Node → List Node
  | .item _ => []
  | .container _ _ content _ => content

def named : Node → List (String × Node)
  | .item _ => []
  | .container _ _ _ named => named

def name? : Node → Option String
  | .item _ => none
  | .container name _ _ _ => name.filter fun s => !s.isEmpty

def isContainer : Node → Bool
  | .item _ => false
  | .container .. => true

def child? (n : Node) : Component → Option Node
  | .index i => n.content[i]?
  | .name s => n.named.lookup s

/--
The step down that a component of a path stands for. A named container that is also in the order of
the content is reached by its position, and of several containers of one name the last one is
reached.
-/
def step? (n : Node) : Component → Option Component
  | .index i => if i < n.content.length then some (.index i) else none
  | .name s =>
    match n.content.reverse.findIdx? fun child => child.name? = some s with
    | some i => some (.index (n.content.length - 1 - i))
    | none => if (n.named.lookup s).isSome then some (.name s) else none

end Node

end Parley.Ink
