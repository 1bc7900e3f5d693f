import Parley.Ink.Document
import Parley.Ink.State

/-!
This module contains the saved form of the state of an ink story: a JSON object with the calls under
way, the output, the choices on offer, the stack, the visits, and the variables that differ from
their values at the start. Whether a choice is invisible is not saved, so that all choices of a
loaded state are shown. A state that cannot be read to its end is taken over up to where it fails.
-/

namespace Parley.Ink

/--
The version of the saved form that is written, and the oldest one that is read.
-/
def saveVersion : Int := 10

@[inherit_doc saveVersion]
def oldestSaveVersion : Int := 8

def Datum.toJson : Datum → Json
  | .scalar (.bool b) => .bool b
  | .scalar (.int n) => .int n.toInt
  | .scalar (.float x) => .ofSingle x
  | .scalar (.string s) => .string ("^" ++ s)
  | .target path => .object [("^->", .string path.text)]
  | .list items =>
    .object [("list", .object (items.map fun item => (item.fullName, .int item.value.toInt)))]

/--
Whether two data are equal. What is not a number equals nothing.
-/
def Datum.same : Datum → Datum → Bool
  | .scalar v, .scalar w => v.same w
  | .target p, .target q => p.same q
  | .list s, .list t => s.same t
  | _, _ => false

def Datum.read (j : Json) : Except String Datum := do
  match ← Node.ofJson? none j with
  | .item (.literal datum) => return datum
  | .item (.text s) => return .scalar (.string s)
  | _ => throw (unknownToken j)

namespace Output

def toJson : Output → Json
  | .text s => .string ("^" ++ s)
  | .glue => .string "<>"
  | .startString => .string "str"
  | .startTag => .string "#"
  | .endTag => .string "/#"
  | .hidden => .string "void"

def read (j : Json) : Except String Output := do
  match ← Node.ofJson? none j with
  | .item (.text s) => return .text s
  | .item .glue => return .glue
  | .item (.command .startString) => return .startString
  | .item (.command .startTag) => return .startTag
  | .item (.command .endTag) => return .endTag
  | _ => return .hidden

end Output

/--
A reading of saved things that may fail with a message. It numbers the data that it makes.
-/
abbrev Reading (α : Type) := StateT Nat (Except String) α

namespace Save

def member (j : Json) (name message : String) : Except String Json :=
  match j.field? name with
  | some value => .ok value
  | none => .error message

def items (j : Json) (name message : String) : Except String (List Json) :=
  match j.field? name with
  | some (.array found) => .ok found
  | _ => .error message

def whole (j : Json) (name message : String) : Except String Int :=
  match j.field? name with
  | some (.int n) => .ok n
  | _ => .error message

def string : Json → String
  | .string s => s
  | _ => ""

def text (j : Json) (name : String) : String :=
  ((j.field? name).map string).getD ""

def members : Json → List (String × Json)
  | .object found => found
  | _ => []

def readCell (j : Json) : Reading Cell := do
  let datum ← Datum.read j
  modifyGet fun serial => (⟨datum, .made serial⟩, serial + 1)

def pointer (root : Node) : Option Pointer → List (String × Json)
  | none => []
  | some p =>
    [("cPath", .string (root.pathText p.container)),
      ("idx", .int (match p.index with | some i => i | none => -1))]

/--
Reads a pointer. A path that is no longer there leads as far as it can.
-/
def readPointer (root : Node) (j : Json) : Except String (Option Pointer) :=
  match j.field? "cPath" with
  | some (.string text) => do
    let (place, _) := root.follow [] (Path.ofText text).components
    let n ← whole j "idx" "Invalid pointer index"
    return if root.hasContainer place then
        some ⟨place, if n < 0 then none else some n.toNat⟩
      else none
  | _ => .ok none

def frame (root : Node) (f : Frame) : Json :=
  .object (pointer root f.pointer ++
    [("exp", .bool f.inExpression), ("type", .int (if f.isFunction then 1 else 0)),
      ("temp", .object (f.temporaries.entries.map fun (name, cell) => (name, cell.datum.toJson)))])

def readFrame (root : Node) (j : Json) : Reading Frame := do
  let isFunction := (← whole j "type" "Invalid push/pop type") = 1
  let pointer ← readPointer root j
  let temporaries ← (((j.field? "temp").map members).getD []).mapM fun (name, value) => do
    return (name, ← readCell value)
  return {
    isFunction, pointer
    inExpression := match j.field? "exp" with | some (.bool b) => b | _ => false
    temporaries := .ofList temporaries
    outputStart := if isFunction then some 0 else none }

/--
A thread as it is saved, with a number by which a choice refers to it. The calls stand in the order
in which they were made, and the previous pointer as the path of what it points to.
-/
def thread (root : Node) (index : Nat) (t : Thread) : Json :=
  let previous :=
    match t.previous.bind (·.place? root) with
    | some place => [("previousContentObject", Json.string (root.pathText place))]
    | none => []
  .object ([("callstack", .array ((t.top :: t.callers).reverse.map (frame root))),
    ("threadIndex", .int index)] ++ previous)

def readThread (root : Node) (j : Json) : Reading (Int × Thread) := do
  let index ← whole j "threadIndex" "Invalid thread index"
  let frames ← (← items j "callstack" "Invalid thread callstack").mapM (readFrame root)
  let previous ←
    match j.field? "previousContentObject" with
    | some (.string text) => Pointer.ofPath root (.ofText text)
    | _ => pure none
  match frames.reverse with
  | [] => throw "Invalid thread callstack"
  | top :: callers => return (index, { top, callers, previous })

def calls (root : Node) (t : Thread) (counter : Nat) : Json :=
  .object [("threads", .array [thread root 0 t]), ("threadCounter", .int counter)]

/--
Reads the calls under way. Of several threads the last one runs.
-/
def readCalls (root : Node) (j : Json) : Reading (Int × Thread) := do
  let message := "loading callstack"
  let threads ← (← items j "threads" message).mapM (readThread root)
  let _ ← whole j "threadCounter" message
  match threads.getLast? with
  | some thread => return thread
  | none => throw message

/--
A choice as it is saved, with the number of its thread.
-/
def offer (o : Offer) (index : Nat) : Json :=
  .object [
    ("text", .string o.text), ("index", .int index), ("originalChoicePath", .string ""),
    ("originalThreadIndex", .int (index + 1)), ("targetPath", .string o.target.text),
    ("tags", .array (o.tags.map .string))]

def readOffer (current : Thread) (j : Json) : Except String (Int × Offer) := do
  let _ ← member j "originalChoicePath" (unknownToken j)
  let tags :=
    match j.field? "tags" with
    | some (.array tags) => tags.map string
    | _ => []
  return (← whole j "originalThreadIndex" (unknownToken j),
    { text := text j "text", tags, target := .ofText (text j "targetPath"),
      isInvisibleDefault := false, thread := current })

/--
Gives their threads to choices: the current one, or one that was saved for them.
-/
def readThreads (root : Node) (current : Int × Thread) (saved : Option Json)
    (offers : List (Int × Offer))
    : Reading (List Offer) :=
  offers.mapM fun (index, offer) => do
    if index = current.1 then
      return { offer with thread := current.2 }
    else
      match saved.bind (·.field? (toString index)) with
      | some j => return { offer with thread := (← readThread root j).2 }
      | none => throw "loading choice threads"

structure Flow where
  thread : Thread
  output : List Output
  offers : List Offer

def flow (root : Node) (s : State) : Json :=
  .object [
    ("callstack", calls root s.thread s.offers.length),
    ("outputStream", .array (s.output.reverse.map Output.toJson)),
    ("choiceThreads", .object (s.offers.mapIdx fun i o =>
      (toString (i + 1), thread root (i + 1) o.thread))),
    ("currentChoices", .array (s.offers.mapIdx fun i o => offer o i))]

def readFlow (root : Node) (j : Json) : Reading Flow := do
  let output ← (← items j "outputStream" "outputStream not found.").mapM fun j => Output.read j
  let choices ← items j "currentChoices" "currentChoices not found."
  let current ← readCalls root (← member j "callstack" "loading callstack")
  let offers ← choices.mapM fun j => readOffer current.2 j
  let offers ← readThreads root current (j.field? "choiceThreads") offers
  return ⟨current.2, output.reverse, offers⟩

/--
Reads where a story is from the members of an older form.
-/
def readOldFlow (root : Node) (j : Json) : Reading Flow := do
  let current ← readCalls root (← member j "callstackThreads" "loading callstack threads")
  let output ← (← items j "outputStream" "loading output stream").mapM fun j => Output.read j
  let offers ← (← items j "currentChoices" "loading current choices").mapM fun j =>
    readOffer current.2 j
  let offers ← readThreads root current (j.field? "choiceThreads") offers
  return ⟨current.2, output.reverse, offers⟩

def operand : Operand → Json
  | .cell c => c.datum.toJson
  | .void => .string "void"
  | .tag text => .object [("#", .string text)]
  | .glue => .string "<>"

def readOperand (j : Json) : Reading Operand :=
  match j with
  | .string "void" => return .void
  | .string "<>" => return .glue
  | .object [("#", .string text)] => return .tag text
  | _ => return .cell (← readCell j)

def readVisits (j : Json) : Except String (Table String Nat) := do
  return .ofList (← (members j).mapM fun (path, value) =>
    match value with
    | .int n => .ok (path, n.toNat)
    | _ => .error "loading visit counts")

/--
Checks the version of a saved state. What is not a whole number passes for one.
-/
def checkVersion (j : Json) : Except String Unit :=
  match j.field? "inkSaveVersion" with
  | none => .error "ink save format incorrect, can't load."
  | some (.int version) =>
    if version < oldestSaveVersion then
      .error
        ("Ink save format isn't compatible with the current version (saw '" ++ toString version ++
          "', but minimum is " ++ toString oldestSaveVersion ++ "), so can't load.")
    else
      .ok ()
  | some _ => .ok ()

def flowName : String := "DEFAULT_FLOW"

end Save

/--
A computation that takes a saved state over, part by part. What was taken over before it fails
stays.
-/
abbrev Loading (α : Type) := ExceptT String (StateM State) α

namespace Loading

/--
Carries out a reading. The data that it makes get the next numbers of the state.
-/
def read {α : Type} (reading : Reading α) : Loading α := do
  let s ← getThe State
  match reading.run s.serial with
  | .ok (found, serial) =>
    set { s with serial }
    return found
  | .error message => throw message

/--
Takes over where the story is. Of several flows the one that is named as the current one is taken.
-/
def flow (root : Node) (j : Json) : Loading Unit := do
  let flow? ←
    match j.field? "flows" with
    | none => do
      let found ← read (Save.readOldFlow root j)
      pure (some found)
    | some flows => do
      let found ← read ((Save.members flows).mapM fun (name, flow) => do
        return (name, ← Save.readFlow root flow))
      match found with
      | [(_, flow)] => pure (some flow)
      | found => pure (found.lookup (Save.text j "currentFlowName"))
  match flow? with
  | some ⟨thread, output, offers⟩ => modify fun s => { s with thread, output, offers }
  | none => return

/--
Takes over the variables. Those that were not saved have their values at the start, and so have all
of them if one cannot be read.
-/
def globals (j : Json) : Loading Unit := do
  let saved := Save.members (← Save.member j "variablesState" "loading variables state")
  modify fun s => { s with globals := .empty }
  let entries ← read ((← get).defaults.entries.mapM fun (name, cell) => do
    match saved.lookup name with
    | none => return (name, cell)
    | some value => return (name, ← Save.readCell value))
  modify fun s => { s with globals := ⟨entries⟩ }

def state (root : Node) (text : String) : Loading Unit := do
  let j ←
    match Json.ofText? text with
    | .ok j => pure j
    | .error _ => throw "State not in JSON format."
  Save.checkVersion j
  flow root j
  globals j
  let stack ← read do
    (← Save.items j "evalStack" "loading evaluation stack").mapM Save.readOperand
  modify fun s => { s with stack := stack.reverse }
  match j.field? "currentDivertTarget" with
  | some (.string text) =>
    let pointer ← Pointer.ofPath root (.ofText text)
    modify fun s => { s with diverted := pointer }
  | _ => pure ()
  let visits ← Save.readVisits (← Save.member j "visitCounts" "loading visit counts")
  modify fun s => { s with visits }
  let _ ← Save.member j "turnIndices" "loading turn indices"
  let _ ← Save.member j "turnIdx" "loading current turn index"
  let _ ← Save.member j "storySeed" "loading story seed"

end Loading

namespace State

def changedVariables (s : State) : List (String × Cell) :=
  s.globals.entries.filter fun (name, cell) =>
    !((s.defaults.get? name).any fun other => cell.datum.same other.datum)

/--
The text of a state. Nothing of it is random, and turns are not counted.
-/
def save (s : State) (root : Node) : String :=
  Json.text (.object [
    ("flows", .object [(Save.flowName, Save.flow root s)]),
    ("currentFlowName", .string Save.flowName),
    ("variablesState",
      .object (s.changedVariables.map fun (name, cell) => (name, cell.datum.toJson))),
    ("evalStack", .array (s.stack.reverse.map Save.operand)),
    ("visitCounts", .object (s.visits.entries.map fun (path, n) => (path, .int n))),
    ("turnIndices", .object []),
    ("turnIdx", .int 0),
    ("storySeed", .int 0),
    ("previousRandom", .int 0),
    ("inkSaveVersion", .int saveVersion),
    ("inkFormatVersion", .int currentVersion)])

def load (s : State) (root : Node) (text : String) : Except String Unit × State :=
  (Loading.state root text).run s

end State

end Parley.Ink
