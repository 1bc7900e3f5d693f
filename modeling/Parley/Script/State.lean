import Parley.Json.Dialogue
import Parley.Table

namespace Parley.Script

structure State where
  knot : Nat := 0
  step : Nat := 0
  visits : Table Nat UInt32 := .empty
  values : Table String Value := .empty

namespace State

def toJson (s : State) : Json :=
  .object [
    ("knot", .int s.knot),
    ("step", .int s.step),
    ("visits", .object (s.visits.entries.map fun (knot, n) => (toString knot, .int n.toNat))),
    ("variables", .object (s.values.entries.map fun (name, value) => (name, .ofValue value)))]

def text (s : State) : String :=
  s.toJson.text

structure Draft where
  knot : Option Nat := none
  step : Option Nat := none
  visits : Option (Table Nat UInt32) := none
  values : Option (Table String Value) := none

open Json (Reader Field Record)

def entries {κ α : Type} [BEq κ] (key : Reader κ) (value : Reader α) : Reader (Table κ α) :=
  Reader.expecting (· = '\x7b') "a map" do
    Reader.advance
    let table ← Reader.members key (fun table k => do
      Reader.colon
      return Table.set table k (← value)) .empty
    Reader.closeObject
    return table

def countKey : Reader Nat := do
  Reader.advance
  match ← Reader.peek with
  | some c => if Reader.startsNumber c then pure () else throw .keyNotNumeric
  | none => throw .keyNotNumeric
  let n ← Reader.count
  match ← Reader.peek with
  | some '"' => Reader.advance
  | _ => throw .expectedQuote
  return n

def visitCount : Reader UInt32 := do
  return UInt32.ofNat (← Reader.integer 0 0xffffffff "u32").toNat

def record : Record Draft where
  name := "ScriptState"
  fields := [
    .of "knot" (·.knot) (fun draft n => { draft with knot := some n }) Reader.count,
    .of "step" (·.step) (fun draft n => { draft with step := some n }) Reader.count,
    .of "visits" (·.visits) (fun draft t => { draft with visits := some t })
      (entries countKey visitCount),
    .of "variables" (·.values) (fun draft t => { draft with values := some t })
      (entries Reader.quotedString Reader.scalar)]

def read : Reader State := do
  let draft ← record.read {}
  return {
    knot := draft.knot.getD 0
    step := draft.step.getD 0
    visits := draft.visits.getD .empty
    values := draft.values.getD .empty }

def ofText? (text : String) : Except Json.Fault State :=
  read.run text

end State

end Parley.Script
