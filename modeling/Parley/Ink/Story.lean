import Parley.Ink.Interpreter
import Parley.Ink.Save
import Parley.Ink.Tale

namespace Parley.Ink

variable {S : Type}

namespace Interpreter

instance : Runtime S (Interpreter S) where
  ofText? := ofText?
  withFallbacks i allowFallbacks := { i with allowFallbacks }
  canContinue i := i.state.canContinue
  continueOne := continueOne
  currentTags i := (.ok (Output.currentTags i.state.output), i)
  choices := choices
  choose := choose
  reset i w := (.ok (), i.reset w)
  choosePath i path := i.choosePath i.state.forceEnd (.ofText path)
  global? i name := (i.global? name).map Datum.scalar?
  setVariable := setVariable
  observe := observe
  bind := bind
  unbind := unbind
  save i := .ok (i.state.save i.root)
  load i text :=
    let (result, state) := i.state.load i.root text
    (result.mapError .badJson, { i with state })
  bound? i name := i.externals.get? name

end Interpreter

abbrev Story (S : Type) := Tale (Interpreter S)

namespace Story

def ofText? (text : String) : Except EngineError (Story S) :=
  Tale.ofText? text

def currentTags (s : Story S) : List String :=
  Output.currentTags s.story.state.output

def visits (s : Story S) (path : String) : Nat :=
  (s.story.state.visits.get? path).getD 0

end Story

end Parley.Ink
