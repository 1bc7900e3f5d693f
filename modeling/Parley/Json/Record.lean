import Parley.Json.Reader

/-!
This module contains the reading of records: objects with known members, or arrays that hold the
values of these members in order. A member that is not known is passed over in an object.
-/

namespace Parley.Json

/--
A field of a record that is gathered in a `σ`.
-/
structure Field (σ : Type) where
  name : String
  isFilled : σ → Bool
  read : σ → Reader σ

def Field.of {σ α : Type} (name : String) (get : σ → Option α) (set : σ → α → σ) (read : Reader α) :
    Field σ where
  name := name
  isFilled s := (get s).isSome
  read s := do return set s (← read)

structure Record (σ : Type) where
  name : String
  fields : List (Field σ)

namespace Record

variable {σ : Type}

def expected (r : Record σ) : String :=
  "struct " ++ r.name

def expectedLength (r : Record σ) : String :=
  let n := r.fields.length
  r.expected ++ " with " ++ toString n ++ (if n = 1 then " element" else " elements")

/--
Reads the values of fields in order, `count` of which have been read.
-/
def readItems (r : Record σ) (count : Nat) : List (Field σ) → σ → Reader σ
  | [], state => pure state
  | field :: rest, state => do
    if ← Reader.anotherItem (count = 0) then
      let state ← field.read state
      r.readItems (count + 1) rest state
    else
      throw (.mismatch (.invalidLength count r.expectedLength))

def readMember (r : Record σ) (state : σ) (name : String) : Reader σ := do
  match r.fields.find? (·.name = name) with
  | some field =>
    if field.isFilled state then throw (.mismatch (.duplicateField name))
    Reader.colon
    field.read state
  | none =>
    Reader.colon
    Reader.skip
    return state

def missing? (r : Record σ) (state : σ) : Option String :=
  (r.fields.find? fun field => !field.isFilled state).map (·.name)

def read (r : Record σ) (empty : σ) : Reader σ := do
  match ← Reader.peekToken with
  | none => throw .endOfValue
  | some '[' => do
    Reader.advance
    let state ← r.readItems 0 r.fields empty
    Reader.closeList
    return state
  | some '\x7b' => do
    Reader.advance
    let state ← Reader.members Reader.quotedString r.readMember empty
    match r.missing? state with
    | some name => throw (.mismatch (.missingField name))
    | none => pure ()
    Reader.closeObject
    return state
  | some _ => Reader.invalidType r.expected

end Record

namespace Reader

def strings : Reader (List String) :=
  expecting (· = '[') "a sequence" do
    advance
    let found ← items (string "a string")
    closeList
    return found

def count : Reader Nat := do
  return (← integer 0 0xffffffffffffffff "usize").toNat

end Reader

end Parley.Json
