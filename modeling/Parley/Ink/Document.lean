import Parley.Ink.Place
import Parley.Json.Dialogue

namespace Parley.Ink

def unknownToken (token : Json) : String :=
  "Failed to convert token to runtime RTObject: " ++ token.text

def memberText? (members : List (String × Json)) (name : String) : Option String :=
  match members.lookup name with
  | some (.string s) => some s
  | _ => none

def memberInt? (members : List (String × Json)) (name : String) : Option Int :=
  match members.lookup name with
  | some (.int n) => some n
  | _ => none

def wholeLimit : Int := 0x8000000000000000

/--
The datum of a token that is a number or a truth value, or of an object that holds a place or a
list.
-/
def Datum.ofJson? : Json → Option Datum
  | .bool b => some (.scalar (.bool b))
  | .int n =>
    some (.scalar (if n < wholeLimit then
      .int (Int32.ofInt n)
    else
      .float (Single.ofRounded false ((Binary.double.round n.natAbs 1).bind (·.round .single)))))
  | .real negative d => some (.scalar (.float (Single.ofRounded negative (d.round .single))))
  | .object members =>
    match memberText? members "^->", members.lookup "list" with
    | some path, _ => some (.target (.ofText path))
    | none, some (.object items) =>
      some (.list (items.filterMap fun (name, value) =>
        match value with
        | .int n => some (.ofFullName name (Int32.ofInt n))
        | _ => none))
    | none, _ => none
  | _ => none

namespace Item

def ofToken? (token : String) : Option Item :=
  match token.toList with
  | '^' :: rest => some (.text (String.ofList rest))
  | _ =>
    if token = "\n" then some (.text "\n")
    else if token = "<>" then some .glue
    else if token = "void" then some .void
    else
      ((Command.tokens.lookup token).map Item.command).orElse fun _ =>
        (Operator.tokens.lookup token).map Item.operator

def divertOf? (members : List (String × Json)) : Option Divert :=
  let divert (isCall : Bool) (destination : Destination) : Divert :=
    { destination, isConditional := (members.lookup "c").isSome, isCall }
  let destination (target : String) : Destination :=
    if (members.lookup "var").isSome then .stored target else .path (.ofText target)
  match memberText? members "->", memberText? members "f()", memberText? members "x()" with
  | some target, _, _ => some (divert false (destination target))
  | none, some target, _ => some (divert true (destination target))
  | none, none, some name =>
    some (divert false (.host (.ofText name) ((memberInt? members "exArgs").getD 0).toNat))
  | none, none, none => none

/--
The choice point in an object. Its properties are the bits of a number.
-/
def choicePointOf? (members : List (String × Json)) : Option ChoicePoint :=
  (memberText? members "*").map fun path =>
    let flags := ((memberInt? members "flg").getD 0).toNat
    { path := .ofText path
      hasCondition := flags.testBit 0
      hasStartContent := flags.testBit 1
      hasChoiceOnlyContent := flags.testBit 2
      isInvisibleDefault := flags.testBit 3
      isOnceOnly := flags.testBit 4 }

def assignmentOf? (members : List (String × Json)) : Option Assignment :=
  let isNew := (members.lookup "re").isNone
  match memberText? members "VAR=", memberText? members "temp=" with
  | some name, _ => some ⟨name, true, isNew⟩
  | none, some name => some ⟨name, false, isNew⟩
  | none, none => none

def ofMembers? (members : List (String × Json)) : Option Item :=
  (memberText? members "^->" |>.map fun path => Item.literal (.target (.ofText path))) <|>
  ((divertOf? members).map Item.divert) <|>
  ((choicePointOf? members).map Item.choicePoint) <|>
  ((memberText? members "VAR?").map Item.read) <|>
  ((memberText? members "CNT?").map fun path => Item.visits (.ofText path)) <|>
  ((assignmentOf? members).map Item.assign) <|>
  ((Datum.ofJson? (.object members)).map Item.literal)

end Item

namespace Counting

def ofFlags (flags : Nat) : Counting :=
  ⟨flags.testBit 0, flags.testBit 2⟩

end Counting

def terminator : List Json → List (String × Json)
  | [] => []
  | [.object members] => members
  | _ :: rest => terminator rest

namespace Node

mutual

/--
Reads a node. A container is an array that ends with its properties and with the containers that are
only reached by their names. A container of the same name in the order of the content hides one of
them.
-/
def ofJson? (name : Option String) : Json → Except String Node
  | .array items => do
    let named ← lastNamed items
    let content ← contents items
    let named := named.filter fun (name, _) => !content.any fun node => node.name? = some name
    let properties := terminator items
    let name := (memberText? properties "#n").orElse fun _ => name
    let flags := ((memberInt? properties "#f").getD 0).toNat
    return .container name (.ofFlags flags) content named
  | .string token =>
    match Item.ofToken? token with
    | some found => .ok (.item found)
    | none => .error (unknownToken (.string token))
  | .object members =>
    match Item.ofMembers? members with
    | some found => .ok (.item found)
    | none => .error (unknownToken (.object members))
  | token =>
    match Datum.ofJson? token with
    | some datum => .ok (.item (.literal datum))
    | none => .error (unknownToken token)

def contents : List Json → Except String (List Node)
  | [] | [_] => .ok []
  | token :: rest => do
    let node ← ofJson? none token
    return node :: (← contents rest)

def lastNamed : List Json → Except String (List (String × Node))
  | [] => .ok []
  | [.object members] => namedOf members
  | _ :: rest => lastNamed rest

/--
Reads the containers among the members of an object. They go by the names of their members, but a
container that names itself keeps its own name in its path.
-/
def namedOf : List (String × Json) → Except String (List (String × Node))
  | [] => .ok []
  | (name, value) :: rest => do
    if name = "#f" || name = "#n" then
      namedOf rest
    else
      let node ← ofJson? (some name) value
      let others ← namedOf rest
      return if node.isContainer then (name, node) :: others else others

end

end Node

/--
The version of compiled ink that is read, and the oldest one that can be read.
-/
def currentVersion : Int := 21

@[inherit_doc currentVersion]
def oldestVersion : Int := 18

def Lists.ofJson : Json → Lists
  | .object lists => lists.map fun (name, items) => ⟨name, itemsOf items⟩
  | _ => []
where
  itemsOf : Json → List (String × Int32)
    | .object items => items.filterMap fun (name, value) =>
      match value with
      | .int n => some (name, Int32.ofInt n)
      | _ => none
    | _ => []

structure Document where
  version : Int
  root : Node
  lists : Lists

namespace Document

def ofText? (text : String) : Except String Document :=
  match Json.ofText? text with
  | .error _ => .error "Story not in JSON format."
  | .ok document => do
    let version ←
      match document.field? "inkVersion" with
      | some (.int version) => pure version
      | _ => throw "ink version number not found. Are you sure it's a valid .ink.json file?"
    if currentVersion < version then
      throw "Version of ink used to build story was newer than the current version of the engine"
    if version < oldestVersion then
      throw ("Version of ink used to build story is too old to be loaded by this version of the " ++
        "engine")
    let some root := document.field? "root"
      | throw "Root node for ink not found. Are you sure it's a valid .ink.json file?"
    let some lists := document.field? "listDefs"
      | throw "List Definitions node for ink not found. Are you sure it's a valid .ink.json file?"
    let root ← Node.ofJson? none root
    if !root.isContainer then
      throw "Root node for ink is not a container?"
    return ⟨version, root, .ofJson lists⟩

end Document

end Parley.Ink
