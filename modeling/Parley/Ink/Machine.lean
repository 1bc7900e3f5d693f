import Parley.Ink.Arithmetic
import Parley.Ink.Runtime
import Parley.Ink.State
import Parley.Text.Blank

/-!
This module contains the execution of ink. A machine runs a story item by item until a line is
complete. A newline may still be taken away by glue behind it, so the machine keeps a snapshot of
the state at a newline, looks ahead, and goes back to the snapshot when the line turns out to be
complete.
-/

namespace Parley.Ink

structure Machine (S : Type) where
  root : Node
  lists : Lists
  externals : Table String (External S)
  /-- Whether a function of the story may stand in for one of the host that is not bound. -/
  allowFallbacks : Bool
  state : State
  /-- The state at the newline behind which the machine looks ahead. -/
  snapshot : Option State := none
  /-- Whether a function was met that must not be called ahead of time. -/
  metUnsafe : Bool := false
  world : World S

abbrev Exec (S α : Type) := ExceptT String (StateM (Machine S)) α

namespace Exec

variable {S : Type}

def state : Exec S State := do
  return (← get).state

def change (f : State → State) : Exec S Unit :=
  modify fun m => { m with state := f m.state }

def pop : Exec S Operand := do
  match (← state).stack with
  | [] => throw "The evaluation stack is empty."
  | operand :: stack =>
    change ({ · with stack })
    return operand

def popMany : Nat → Exec S (List Operand)
  | 0 => return []
  | n + 1 => do
    let last ← pop
    return (← popMany n) ++ [last]

/--
Takes data from the stack, in the order in which they were put there. Operands that are none fail
with a message.
-/
def popData (count : Nat) (message : String) : Exec S (List Datum) := do
  (← popMany count).mapM fun
    | .cell c => pure c.datum
    | _ => throw message

def pushMade (datum : Datum) : Exec S Unit :=
  change fun s =>
    let (cell, s) := s.make datum
    s.push (.cell cell)

def popCondition : Exec S Bool := do
  match ← pop with
  | .cell c => c.datum.isTruthy fun path =>
    "Shouldn't use a divert target (to " ++ path.text ++ ") as a conditional value. Did you " ++
      "intend a function call 'likeThis()' or a read count check 'likeThis'? (no arrows)"
  | _ => return false

/--
Calls a function of the host, or the function of the story that stands in for it. While the machine
looks ahead an unsafe function is not called. A safe one cannot be called inside of a text for an
expression.
-/
def callHost (name : String) (count : Nat) : Exec S Unit := do
  let m ← get
  match m.externals.get? name with
  | some external =>
    if external.lookaheadSafe && Output.inString m.state.output then
      throw
        ("External function " ++ name ++ " could not be called because 1) it wasn't marked as " ++
        "lookaheadSafe when BindExternalFunction was called and 2) the story is in the middle " ++
        "of string generation, either because choice text is being generated, or because you " ++
        "have ink like \"hello \x7bfunc()\x7d\". You can work around this by generating the " ++
        "result of your function into a temporary variable before the string or choice gets " ++
        "generated: ~ temp x = " ++ name ++ "()")
    else if !external.lookaheadSafe && m.snapshot.isSome then
      set { m with metUnsafe := true }
    else
      let arguments ← popData count
        ("Trying to call EXTERNAL function '" ++ name ++ "' with arguments which are not values.")
      let m ← get
      let (result, world) :=
        match arguments.mapM Datum.scalar? with
        | some values => external.function.call values m.world
        | none =>
          (none, m.world.log .warn
            ("External function `" ++ name ++ "` was called with a non scalar argument."))
      set { m with world }
      match result with
      | some v => pushMade (.scalar v)
      | none => change (·.push .void)
  | none =>
    if m.allowFallbacks then
      match m.root.step? (.name name) with
      | some step =>
        change fun s => { s.call with diverted := some (.startOf [step]) }
      | none =>
        throw ("Trying to call EXTERNAL function '" ++ name ++
          "' which has not been bound, and fallback ink function could not be found.")
    else
      throw ("Trying to call EXTERNAL function '" ++ name ++
        "' which has not been bound (and ink fallbacks disabled).")

def divertText (root : Node) (place : Place) (d : Divert) : String :=
  match d.destination with
  | .stored name => "Divert(variable: " ++ name ++ ")"
  | .path path | .host path _ =>
    "Divert" ++ (if d.isConditional then "?" else "") ++ (if d.isCall then " function" else "") ++
      " -> " ++ root.compactText place path ++ " (" ++ path.text ++ ")"

def jump (place : Place) (d : Divert) (pointer : Option Pointer) : Exec S Unit := do
  change fun s => { if d.isCall then s.call else s with diverted := pointer }
  if pointer.isNone then
    throw ("Divert resolution failed: " ++ divertText (← get).root place d)

def divert (place : Place) (d : Divert) : Exec S Unit := do
  if d.isConditional then
    if !(← popCondition) then
      return
  let m ← get
  match d.destination with
  | .path path => jump place d (Pointer.target m.root place path)
  | .host function count => callHost (m.root.compactText place function) count
  | .stored name =>
    match m.state.lookup m.lists name with
    | some ⟨.target path, _⟩ => jump place d (← Pointer.ofPath m.root path)
    | some ⟨datum, _⟩ =>
      let found :=
        match datum with
        | .scalar (.int 0) => "was empty/null (the value 0)."
        | .scalar (.int n) => "contained '" ++ toString n.toInt ++ "'."
        | _ => ""
      throw ("Tried to divert to a target from a variable, but the variable (" ++ name ++
        ") didn't contain a divert target, it " ++ found)
    | none =>
      throw
        ("Tried to divert using a target from a variable that could not be found (" ++ name ++ ")")

/--
Ends a text for an expression: what was written since its start goes to the stack.
-/
def endString : Exec S Unit := do
  let s ← state
  let written := s.output.takeWhile (· ≠ Output.startString)
  let text := String.join (written.reverse.filterMap fun o =>
    match o with
    | .text t => some t
    | _ => none)
  change fun s =>
    { s with output := (s.output.dropWhile (· ≠ Output.startString)).tail }.mapTop
      ({ · with inExpression := true })
  pushMade (.scalar (.string text))

/--
Ends a tag. Inside of the text of a choice it goes to the stack, from where the choice takes it.
-/
def endTag : Exec S Unit := do
  let s ← state
  if Output.inString s.output then
    let written := s.output.takeWhile fun o => !o.isMark
    let text := String.join (written.reverse.filterMap fun o =>
      match o with
      | .text t => some t
      | _ => none)
    let rest := s.output.dropWhile fun o => !o.isMark
    if rest.head? ≠ some .startTag then
      throw "Unexpected ControlCommand while extracting tag from choice"
    change fun s => { s with output := rest.tail }.push (.tag (Output.clean text))
  else
    change (·.write .endTag)

def command : Command → Exec S Unit
  | .startExpression => do
    if (← state).thread.top.inExpression then
      throw "Already in expression evaluation?"
    change (·.mapTop ({ · with inExpression := true }))
  | .endExpression => do
    if !(← state).thread.top.inExpression then
      throw "Not in expression evaluation mode"
    change (·.mapTop ({ · with inExpression := false }))
  | .write => do
    if !(← state).stack.isEmpty then
      match ← pop with
      | .cell c => change (·.writeText c.datum.text)
      | .tag text => change (·.writeText ("# " ++ text))
      | .glue => change (·.writeText "Glue")
      | .void => return
  | .drop => do
    let _ ← pop
  | .ret => do
    match (← state).ret? with
    | some s => change fun _ => s
    | none =>
      throw ("Found function return statement (~ return), when expected end of flow (-> END or " ++
        "choice)")
  | .startString => do
    change (·.write .startString)
    if !(← state).thread.top.inExpression then
      throw "Expected to be in an expression when evaluating a string"
    change (·.mapTop ({ · with inExpression := false }))
  | .endString => endString
  | .startTag => change (·.write .startTag)
  | .endTag => endTag
  | .done => change fun s => { s.goTo none with endsSafely := true }
  | .stop => change (·.forceEnd)

/--
Reads a variable. One that does not exist is zero, with a warning.
-/
def read (name : String) : Exec S Unit := do
  let m ← get
  match m.state.lookup m.lists name with
  | some cell => change (·.push (.cell cell))
  | none =>
    change (·.complain m.root true
      ("Variable not found: '" ++ name ++ "'. Using default value of 0 (false). This can happen " ++
        "with temporary variables if the declaration hasn't yet been hit. Globals are always " ++
        "given a default value on load if a value doesn't exist in the save state."))
    pushMade (.scalar (.int 0))

def popChoiceText (tags : List String) : Exec S (String × List String) := do
  let text :=
    match ← pop with
    | .cell c => c.datum.text
    | _ => ""
  let tagsOf (o : Operand) : Option String :=
    match o with
    | .tag text => some text
    | _ => none
  let taken := (← state).stack.takeWhile fun o => (tagsOf o).isSome
  change fun s => { s with stack := s.stack.drop taken.length }
  return (text, (taken.filterMap tagsOf).reverse ++ tags)

/--
Offers the choice of the choice point at a place, if its condition holds and it was not taken
before.
-/
def offer (place : Place) (c : ChoicePoint) : Exec S Unit := do
  let isAllowed ← if c.hasCondition then popCondition else pure true
  let (inner, tags) ← if c.hasChoiceOnlyContent then popChoiceText [] else pure ("", [])
  let (start, tags) ← if c.hasStartContent then popChoiceText tags else pure ("", tags)
  let m ← get
  let target := m.root.followFrom place c.path
  let isSpent := c.isOnceOnly && 0 < m.state.visitsAt m.root target
  if isAllowed && !isSpent then
    let path :=
      if c.path.isRelative && m.root.hasContainer target then m.root.pathTo target else c.path
    let choice : Offer :=
      { text := String.ofList (Text.trim (start ++ inner).toList), tags, target := path
        isInvisibleDefault := c.isInvisibleDefault, thread := m.state.thread }
    change fun s => { s with offers := s.offers ++ [choice] }

/--
Carries out the item at a place, or adds it to the stack or to the output. An assignment that
declares nothing is one to a global variable if there is a variable of that name, but while the
machine looks ahead variables that were declared since do not count.
-/
def item (place : Place) (i : Item) : Exec S Unit := do
  let s ← state
  match i with
  | .command c => command c
  | .divert d => divert place d
  | .choicePoint c => offer place c
  | .read name => read name
  | .visits path =>
    let m ← get
    let count := m.state.visitsAt m.root (m.root.followFrom place path)
    pushMade (.scalar (.int (Int32.ofNat count)))
  | .assign a =>
    match ← pop with
    | .cell cell =>
      let m ← get
      let isGlobal :=
        if a.isNew then a.isGlobal else ((m.snapshot.getD m.state).global? a.name).isSome
      match m.state.assign a isGlobal cell with
      | .ok s => change fun _ => s
      | .error message => throw message
    | _ => throw "A variable can only hold a value."
  | .operator o =>
    let operands ← popData o.arity
      ("Attempting to perform " ++ o.token ++ " on a void value. Did you forget to 'return' a " ++
        "value from a function you called here?")
    match o.apply (← get).lists operands with
    | .ok datum => pushMade datum
    | .error message => throw message
  | .text t =>
    if s.thread.top.inExpression then
      change (·.push (.cell ⟨.scalar (.string t), .literal place⟩))
    else
      change (·.writeText t)
  | .glue => change fun s => if s.thread.top.inExpression then s.push .glue else s.write .glue
  | .void => change fun s => if s.thread.top.inExpression then s.push .void else s.write .hidden
  | .literal datum =>
    change fun s =>
      if s.thread.top.inExpression then s.push (.cell ⟨datum, .literal place⟩) else s.write .hidden

/--
Moves on to the next item, or to where a divert leads. Behind the last item of a function its call
ends.
-/
def moveOn (bound : Nat) : Exec S Unit := do
  let m ← get
  let s := { m.state with thread := { m.state.thread with previous := m.state.pointer } }
  match s.diverted with
  | some pointer =>
    let s := { s.goTo (some pointer) with diverted := none }
    set { m with state := s.visitEntered m.root s.thread.previous }
  | none =>
    let s := s.goTo (s.pointer.bind (·.next m.root))
    set { m with state := s }
    match bound with
    | 0 => return
    | bound + 1 =>
      match s.pointer, s.ret? with
      | none, some s => do
        let s := if s.thread.top.inExpression then s.push .void else s
        set { m with state := s }
        if s.pointer.isSome then
          moveOn bound
      | _, _ => return

/--
Goes down from a container to its first item, and counts the visits on the way.
-/
def descend (root : Node) (s : State) (pointer : Pointer) (place : Place) : Node → Pointer × State
  | .container _ _ (first :: _) _ =>
    descend root (s.visit root place true) (.startOf place) (.index 0 :: place) first
  | .container _ _ [] _ => (pointer, s.visit root place true)
  | .item _ => (pointer, s)

def step : Exec S Unit := do
  let m ← get
  match m.state.pointer with
  | none => return
  | some pointer =>
    let (pointer, s) :=
      match pointer.place? m.root with
      | none => (pointer, m.state)
      | some place =>
        match m.root.at? place with
        | none => (pointer, m.state)
        | some node => descend m.root m.state pointer place node
    set { m with state := s.goTo (some pointer) }
    match (pointer.place? m.root).bind fun place => (m.root.at? place).map (place, ·) with
    | some (place, .item i) => item place i
    | _ => pure ()
    let s ← state
    if s.pointer.isSome then
      moveOn s.thread.callers.length

/--
Takes the first invisible choice if there are no others.
-/
def followDefault : Exec S Unit := do
  let m ← get
  let offers := m.state.currentOffers
  match offers.filter (·.isInvisibleDefault) with
  | [] => return
  | choice :: others =>
    if others.length + 1 = offers.length then
      let s := { m.state with thread := choice.thread, offers := [] }
      change fun _ => s
      match s.choosePath m.root choice.target with
      | .ok s => change fun _ => s
      | .error message => throw message

def restore : Exec S Unit :=
  modify fun m => { m with state := m.snapshot.getD m.state, snapshot := none }

/--
Runs the current item and what follows from it. The flag says whether the line is complete.
-/
def advance : Exec S Bool := do
  step
  if !(← state).canContinue then
    followDefault
  let m ← get
  if Output.inString m.state.output then
    return false
  match m.snapshot with
  | some old =>
    match Output.newlineFate old.output m.state.output with
    | .passed =>
      restore
      return true
    | fate =>
      if m.metUnsafe then
        restore
        return true
      if fate = .removed then
        set { m with snapshot := none }
  | none => pure ()
  let m ← get
  if Output.endsInNewline m.state.output then
    if m.state.canContinue then
      set { m with snapshot := some (m.snapshot.getD m.state) }
    else
      set { m with snapshot := none }
  return false

/--
Runs items until the line is complete or nothing is left to run, but not more than `bound` items.
-/
def line : Nat → Exec S Unit
  | 0 => throw "The story runs for too long."
  | bound + 1 => do
    if ← advance then
      return
    if (← state).canContinue then
      line bound

end Exec

namespace Machine

variable {S : Type}

/--
How many items are run at most for one line.
-/
def maxItems : Nat := 10000000

def fail (m : Machine S) (message : String) : Machine S :=
  { m with state := m.state.complain m.root false message }

/--
What is wrong when the story has nothing left to run, if anything is.
-/
def shortage? (s : State) : Option String :=
  if s.canContinue || s.endsSafely || !s.offers.isEmpty then
    none
  else if s.thread.top.isFunction && !s.thread.callers.isEmpty then
    some "unexpectedly reached end of content. Do you need a '~ return'?"
  else if s.thread.callers.isEmpty then
    some "ran out of content. Do you need a '-> DONE' or '-> END'?"
  else
    some "unexpectedly reached end of content for unknown reason. Please debug compiler!"

def runLine (m : Machine S) : Machine S :=
  let m := { m with
    state := { m.state with output := [], endsSafely := false, changed := [] }
    snapshot := none
    metUnsafe := false }
  let (result, m) := (Exec.line maxItems).run.run m
  let m :=
    match result with
    | .ok _ => m
    | .error message => m.fail message
  let m := { m with state := m.snapshot.getD m.state, snapshot := none, metUnsafe := false }
  let m :=
    match shortage? m.state with
    | some message => m.fail message
    | none => m
  { m with state := { m.state with endsSafely := false } }

/--
Declares the global variables of the story, and notes their values as those at the start.
-/
def declareGlobals (m : Machine S) : Machine S :=
  let name := "global decl"
  match m.root.step? (.name name) with
  | none => m
  | some _ =>
    match m.state.choosePath m.root (.ofText name) with
    | .error message => m.fail message
    | .ok s =>
      let m := { m with state := s }.runLine
      { m with state := { m.state.goTo State.startFrame.pointer with defaults := m.state.globals } }

end Machine

end Parley.Ink
