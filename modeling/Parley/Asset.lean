import Parley.Json.Record
import Parley.Table

namespace Parley

def storyTypeName : String := "DialogueRunner.StoryAsset"

/--
An asset: the text of a story, or data of some other type.
-/
inductive Asset where
  | story (text : String)
  | raw (typeName : String) (data : Json)

def Asset.typeName : Asset → String
  | .story _ => storyTypeName
  | .raw typeName _ => typeName

def Asset.story? : Asset → Option String
  | .story text => some text
  | .raw .. => none

/--
The types whose elements can be put into a library. A host may have assets of its own besides those
that are loaded.
-/
class Shelved (A : Type) where
  ofAsset : Asset → A
  /-- The text of the story in an element, if that is a story asset. -/
  story? : A → Option String
  story?_ofAsset (asset : Asset) : story? (ofAsset asset) = asset.story?

instance : Shelved Asset where
  ofAsset asset := asset
  story? := Asset.story?
  story?_ofAsset _ := rfl

/--
An asset by its identifier. The asset is missing if the library did not have it.
-/
structure Reference (A : Type := Asset) where
  id : String
  asset : Option A

namespace Json

def found : Json → Found
  | .null => .null
  | .bool b => .bool b
  | .int n => .int n
  | .real negative d => .real negative d
  | .string s => .string s
  | .array _ => .sequence
  | .object _ => .map

def asString? : Json → Except Mismatch String
  | .string s => .ok s
  | other => .error (.invalidType other.found "a string")

end Json

namespace Asset

def storyRecord : Json.Record (Option String) where
  name := "StoryAsset"
  fields := [.of "Story" id (fun _ text => some text) (Json.Reader.string "a string")]

def readStory : Json.Reader String := do
  return (← storyRecord.read none).getD ""

def storyOf? : Json → Except Json.Mismatch String
  | .object members =>
    match members.lookup "Story" with
    | none => .error (.missingField "Story")
    | some content => content.asString?
  | .array [] => .error (.invalidLength 0 storyRecord.expectedLength)
  | .array [content] => content.asString?
  | .array (content :: more) => do
    let _ ← content.asString?
    throw (.invalidLength (more.length + 1) "fewer elements in array")
  | other => .error (.invalidType other.found storyRecord.expected)

structure Envelope where
  id : String
  typeName : String
  data : Json

structure Envelope.Draft where
  id : Option String := none
  typeName : Option String := none
  data : Option Json := none

def Envelope.record : Json.Record Envelope.Draft where
  name := "AssetEnvelope"
  fields := [
    .of "ID" (·.id) (fun draft id => { draft with id := some id }) (Json.Reader.string "a string"),
    .of "TypeName" (·.typeName) (fun draft typeName => { draft with typeName := some typeName })
      (Json.Reader.string "a string"),
    .of "Data" (·.data) (fun draft data => { draft with data := some data })
      (Json.Reader.value (Json.Reader.maxDepth - 1))]

def Envelope.read : Json.Reader Envelope := do
  let draft ← record.read {}
  return ⟨draft.id.getD "", draft.typeName.getD "", draft.data.getD .null⟩

def Envelope.asset? (e : Envelope) : Except Json.Mismatch Asset :=
  if e.typeName = storyTypeName then
    (storyOf? e.data).map .story
  else
    .ok (.raw e.typeName e.data)

end Asset

/--
A text without the mark that may stand at its start to tell the order of bytes.
-/
def withoutByteOrderMark (text : String) : String :=
  match text.toList with
  | '\ufeff' :: rest => String.ofList rest
  | _ => text

structure Library (A : Type := Asset) where
  assets : Table String A := .empty

namespace Library

variable {A : Type}

def insert (l : Library A) (id : String) (asset : A) : Reference A × Library A :=
  (⟨id, some asset⟩, ⟨l.assets.set id asset⟩)

/--
Adds the asset in the text of an envelope. A text that holds no envelope, or a wrong one, changes
nothing.
-/
def load [Shelved A] (l : Library A) (text : String)
    : Except Json.Fault (Reference A) × Library A :=
  match Asset.Envelope.read.run (withoutByteOrderMark text) with
  | .error fault => (.error fault, l)
  | .ok envelope =>
    match envelope.asset? with
    | .error mismatch => (.error (.mismatch mismatch), l)
    | .ok asset =>
      let (reference, l) := l.insert envelope.id (Shelved.ofAsset asset)
      (.ok reference, l)

def resolve (l : Library A) (id : String) : Reference A :=
  ⟨id, l.assets.get? id⟩

def size (l : Library A) : Nat :=
  l.assets.size

end Library

end Parley
