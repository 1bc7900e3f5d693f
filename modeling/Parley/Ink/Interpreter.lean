import Parley.Error
import Parley.Ink.Document
import Parley.Ink.Machine

/-!
This module contains the interpreter of ink: a story with its state, the functions of the host that
are bound to it and the observers of its variables. Binding is strict: a name that is bound cannot
be bound again, and one that is not bound cannot be released.
-/

namespace Parley.Ink

structure Interpreter (S : Type) where
  root : Node
  lists : Lists
  state : State
  externals : Table String (External S) := .empty
  allowFallbacks : Bool := false
  /-- Whether all functions of the host were found to be bound once. -/
  isValidated : Bool := false
  observers : Table String (List Observer) := .empty
  /-- Whether the story was once continued where it cannot go on. Since then observers are not told
  any more of what the story does to its variables. -/
  isSilent : Bool := false

mutual

def Node.hostFunctions (root : Node) (place : Place) : Node → List String
  | .item (.divert ⟨.host function _, _, _⟩) => [root.compactText place function]
  | .item _ => []
  | .container _ _ content named =>
    Node.hostFunctionsOf root place 0 content ++ Node.hostFunctionsNamed root place named

def Node.hostFunctionsOf (root : Node) (container : Place) (position : Nat)
    : List Node → List String
  | [] => []
  | node :: rest =>
    Node.hostFunctions root (.index position :: container) node ++
      Node.hostFunctionsOf root container (position + 1) rest

def Node.hostFunctionsNamed (root : Node) (container : Place) :
    List (String × Node) → List String
  | [] => []
  | (name, node) :: rest =>
    Node.hostFunctions root (.name name :: container) node ++
      Node.hostFunctionsNamed root container rest

end

namespace Interpreter

variable {S : Type}

def summary (s : State) : String :=
  let counted (n : Nat) (noun : String) : String :=
    toString n ++ " " ++ noun ++ (if n = 1 then "" else "s")
  let parts :=
    (if s.errors.isEmpty then [] else [counted s.errors.length "error"]) ++
      (if s.warnings.isEmpty then [] else [counted s.warnings.length "warning"])
  "Ink had " ++ " and ".intercalate parts ++ ". It is strongly suggested that you assign an " ++
    "error handler to story.onError. The first issue was: " ++ (s.errors ++ s.warnings).headD ""

/--
The interpreter of the story in a text, with its variables declared. Errors make the declaration
fail, but warnings are only kept.
-/
def ofText? (text : String) : Except EngineError (Interpreter S) := do
  let document ← (Document.ofText? text).mapError .badJson
  let ⟨version, root, lists⟩ := document
  let machine : Machine Unit :=
    { root, lists, externals := .empty, allowFallbacks := false, state := .blank,
      world := ⟨(), []⟩ }
  let state := machine.declareGlobals.state
  if !state.errors.isEmpty then
    throw (.invalidState (summary state))
  let state := { state with changed := [] }
  if version = currentVersion then
    return { root, lists, state }
  else
    let message := "WARNING: Version of ink used to build story (" ++ toString version ++
      ") doesn't match current version (" ++ toString currentVersion ++
      ") of engine. Non-critical, but recommend synchronising."
    return { root, lists, state := state.complain root true message }

def machine (i : Interpreter S) (w : World S) : Machine S :=
  { root := i.root, lists := i.lists, externals := i.externals, allowFallbacks := i.allowFallbacks
    state := i.state, world := w }

def notify (i : Interpreter S) (w : World S) (name : String) (datum : Datum) : World S :=
  let observers := (i.observers.get? name).getD []
  match datum.scalar? with
  | some value => w.notify observers name value
  | none =>
    observers.foldl (fun w _ => w.log .debug "skipping change of a non scalar variable") w

/--
Takes over the state of a machine that has run. Errors are logged and forgotten, warnings are logged
again each time, and the observers are told of the variables that changed, unless the interpreter is
silent.
-/
def settle (i : Interpreter S) (m : Machine S) : Interpreter S × World S :=
  let s := m.state
  let w := s.errors.foldl (fun w message => w.log .error message) m.world
  let w := s.warnings.foldl (fun w message => w.log .warn message) w
  let i := { i with state := { s with errors := [], changed := [] } }
  (i, (if i.isSilent then [] else s.changed).foldl (fun w name =>
    match s.globals.get? name with
    | some cell => i.notify w name cell.datum
    | none => w) w)

/--
The functions of the host that the story calls, but that are neither bound nor replaced by a
fallback.
-/
def unboundFunctions (i : Interpreter S) : List String :=
  ((Node.hostFunctions i.root [] i.root).filter fun name =>
    !i.externals.contains name &&
      !(i.allowFallbacks && (i.root.step? (.name name)).isSome)).eraseDups

/--
Checks that all functions of the host are bound. They are not checked again after that.
-/
def validate (i : Interpreter S) : Except EngineError (Interpreter S) :=
  if i.isValidated then
    .ok i
  else
    match i.unboundFunctions with
    | [] => .ok { i with isValidated := true }
    | names =>
      .error (.invalidState ("ERROR: Missing function binding for external" ++
        (if names.length = 1 then "" else "s") ++ ": '" ++ ", ".intercalate names ++ "' " ++
        (if i.allowFallbacks then ", and no fallback ink function found."
          else " (ink fallbacks disabled)")))

def continueOne (i : Interpreter S) (w : World S) :
    Except EngineError String × Interpreter S × World S :=
  match i.validate with
  | .error error => (.error error, i, w)
  | .ok i =>
    if i.state.canContinue then
      let (i, w) := i.settle (i.machine w).runLine
      (.ok (Output.currentText i.state.output), i, w)
    else
      (.error (.invalidState "Can't continue - should check can_continue before calling Continue"),
        { i with isSilent := true }, w)

def choices (i : Interpreter S) : List Choice :=
  i.state.visibleOffers.mapIdx fun index offer => ⟨index, offer.text, offer.tags⟩

/--
Goes to a place. A place that does not exist is a failure, and withdraws the choices on offer all
the same.
-/
def choosePath (i : Interpreter S) (state : State) (path : Path) :
    Except EngineError Unit × Interpreter S :=
  match state.choosePath i.root path with
  | .ok state => (.ok (), { i with state })
  | .error message =>
    (.error (.invalidState message), { i with state := { state with offers := [] } })

def choose (i : Interpreter S) (index : Nat) : Except EngineError Unit × Interpreter S :=
  match i.state.visibleOffers[index]? with
  | none => (.error (.badArgument "choice out of range"), i)
  | some offer => i.choosePath { i.state with thread := offer.thread } offer.target

def reset (i : Interpreter S) (w : World S) : Interpreter S × World S :=
  i.settle { i.machine w with state := .blank }.declareGlobals

def global? (i : Interpreter S) (name : String) : Option Datum :=
  (i.state.global? name).map (·.datum)

def setVariable (i : Interpreter S) (name : String) (value : Value) (w : World S) :
    Except EngineError Unit × Interpreter S × World S :=
  if i.state.defaults.contains name then
    let (cell, state) := i.state.make (.scalar value)
    let (isChanged, state) := state.setGlobal name cell
    let i := { i with state }
    (.ok (), i, if isChanged then i.notify w name cell.datum else w)
  else
    (.error (.badArgument ("Cannot assign to a variable " ++ name ++
      " that hasn't been declared in the story")), i, w)

def observe (i : Interpreter S) (name : String) (observer : Observer) :
    Except EngineError Unit × Interpreter S :=
  if (i.state.global? name).isSome then
    (.ok (), { i with observers := i.observers.update name [] (· ++ [observer]) })
  else
    (.error (.badArgument ("Cannot observe variable '" ++ name ++
      "' because it wasn't declared in the ink story.")), i)

def bind (i : Interpreter S) (name : String) (external : External S) :
    Except EngineError Unit × Interpreter S :=
  if i.externals.contains name then
    (.error (.badArgument ("Function '" ++ name ++ "' has already been bound.")), i)
  else
    (.ok (), { i with externals := i.externals.set name external })

def unbind (i : Interpreter S) (name : String) : Except EngineError Unit × Interpreter S :=
  if i.externals.contains name then
    (.ok (), { i with externals := i.externals.erase name })
  else
    (.error (.badArgument ("Function '" ++ name ++ "' has not been bound.")), i)

end Interpreter

end Parley.Ink
