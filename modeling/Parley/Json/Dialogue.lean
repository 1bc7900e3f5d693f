import Parley.Dialogue
import Parley.Json.Record
import Parley.Value

namespace Parley

namespace Kind

def all : List Kind :=
  [.int, .float, .string, .bool]

def tag : Kind → String
  | .int => "Int"
  | .float => "Float"
  | .string => "Str"
  | .bool => "Bool"

def ofTag? (tag : String) : Option Kind :=
  all.find? (·.tag = tag)

theorem ofTag?_tag (k : Kind) : ofTag? k.tag = some k := by
  cases k <;> decide

end Kind

namespace Json

/--
A number as JSON, with the fewest digits that read back as the number. What is not finite has no
JSON form and becomes `null`.
-/
def ofSingle (x : Float32) : Json :=
  match Single.parts x with
  | .finite negative d =>
    .real negative (((Decimal.shortest .single .even d).round .double).getD ⟨0, 0⟩)
  | _ => .null

def ofValue (v : Value) : Json :=
  let content : Json :=
    match v with
    | .int n => .int n.toInt
    | .float x => ofSingle x
    | .string s => .string s
    | .bool b => .bool b
  .object [(v.kind.tag, content)]

namespace Reader

def kind : Reader Kind := do
  let name ← string "variant identifier"
  match Kind.ofTag? name with
  | some k => return k
  | none => throw (.mismatch (.unknownVariant name (Kind.all.map Kind.tag)))

def carrier : (k : Kind) → Reader k.Carrier
  | .int => do return Int32.ofInt (← integer (-0x80000000) 0x7fffffff "i32")
  | .float => do
    match ← number "f32" with
    | .int n => return Single.ofInt n
    | .real negative d => return Single.ofRounded negative (d.round .single)
  | .string => string "a string"
  | .bool => bool

def scalar : Reader Value := do
  match ← peekToken with
  | none => throw .endOfValue
  | some '"' => do
    let _ ← kind
    throw (.mismatch (.invalidType .unitVariant "newtype variant"))
  | some '\x7b' => do
    advance
    let k ← kind
    colon
    let content ← carrier k
    match ← peekToken with
    | some '\x7d' => do
      advance
      return Value.ofCarrier content
    | some _ => throw .expectedValue
    | none => throw .endOfObject
  | some _ => throw .expectedValue

end Reader

structure Draft where
  index : Option Nat := none
  text : Option String := none
  tags : Option (List String) := none

def Draft.textField : Field Draft :=
  .of "text" (·.text) (fun draft text => { draft with text := some text })
    (Reader.string "a string")

def Draft.tagsField : Field Draft :=
  .of "tags" (·.tags) (fun draft tags => { draft with tags := some tags }) Reader.strings

def Draft.indexField : Field Draft :=
  .of "index" (·.index) (fun draft index => { draft with index := some index }) Reader.count

namespace Reader

def line : Reader Line := do
  let draft ← Record.read ⟨"DialogueLine", [Draft.textField, Draft.tagsField]⟩ {}
  return ⟨draft.text.getD "", draft.tags.getD []⟩

def choice : Reader Choice := do
  let draft ←
    Record.read ⟨"DialogueChoice", [Draft.indexField, Draft.textField, Draft.tagsField]⟩ {}
  return ⟨draft.index.getD 0, draft.text.getD "", draft.tags.getD []⟩

end Reader

end Json

end Parley
