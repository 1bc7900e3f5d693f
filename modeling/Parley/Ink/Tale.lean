import Parley.Asset
import Parley.Engine
import Parley.Ink.Runtime

/-!
This module contains the stories of an ink runtime as a runner drives them. Functions of the host
can be bound to such a story again and again, although the runtime may bind each name only once: the
names that are bound are kept, and a name is released before it is bound anew.
-/

namespace Parley.Ink

structure Tale (I : Type) where
  story : I
  /-- The names of the functions that are bound. -/
  bound : List String := []

namespace Tale

variable {S I : Type} [Runtime S I]

/--
The story in a text, which may start with a byte order mark.
-/
def ofText? (text : String) : Except EngineError (Tale I) := do
  return { story := ← Runtime.ofText? (withoutByteOrderMark text) }

def withFallbacks (t : Tale I) (allowFallbacks : Bool) : Tale I :=
  { t with story := Runtime.withFallbacks t.story allowFallbacks }

def continueOne (t : Tale I) (w : World S) : Except EngineError Line × Tale I × World S :=
  match Runtime.continueOne t.story w with
  | (.error error, story, w) => (.error error, { t with story }, w)
  | (.ok text, story, w) =>
    let (tags, story) := Runtime.currentTags story
    (tags.map (Line.ofText text), { t with story }, w)

def startPath : String := "0"

def release (t : Tale I) (name : String) : Except EngineError Unit × I :=
  if t.bound.contains name then Runtime.unbind t.story name else (.ok (), t.story)

/--
Binds a function, in the place of one that was bound before.
-/
def bind (t : Tale I) (function : Function S) (lookaheadSafe : Bool)
    : Except EngineError Unit × Tale I :=
  let name := function.name
  match t.release name with
  | (.error error, story) => (.error error, { t with story })
  | (.ok _, story) =>
    match Runtime.bind story name ⟨function, lookaheadSafe⟩ with
    | (.error error, story) => (.error error, { t with story })
    | (.ok _, story) =>
      (.ok (), ⟨story, if t.bound.contains name then t.bound else name :: t.bound⟩)

instance : Engine S (Tale I) where
  canContinue t := Runtime.canContinue t.story
  continueOne := continueOne
  choices t := Runtime.choices t.story
  choose t index :=
    let (result, story) := Runtime.choose t.story index
    (result, { t with story })
  reset t w :=
    let (result, story, w) := Runtime.reset t.story w
    (result, { t with story }, w)
  rewind t :=
    let (result, story) := Runtime.choosePath t.story startPath
    (result, { t with story })
  scalar? t name := (Runtime.global? t.story name).join
  hasVariable t name := (Runtime.global? t.story name).isSome
  setVariable t name value w :=
    let (result, story, w) := Runtime.setVariable t.story name value w
    (result, { t with story }, w)
  observe t name observer :=
    let (result, story) := Runtime.observe t.story name observer
    (result, { t with story })
  bind := bind
  save t := Runtime.save t.story
  load t text :=
    let (result, story) := Runtime.load t.story text
    (result, { t with story })

end Tale

end Parley.Ink
