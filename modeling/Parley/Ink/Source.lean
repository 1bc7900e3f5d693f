import Parley.Ink.Tale
import Parley.LoadOptions
import Parley.Program

namespace Parley.Ink

inductive Source (A : Type := Asset) where
  | document (text : String)
  /-- The text of a story asset. -/
  | asset (story : String)
  | reference (reference : Reference A)

inductive LoadError where
  /-- The reference leads to no asset. -/
  | unresolved (id : String)
  /-- The text holds no story. -/
  | parse (error : EngineError)
  /-- The envelope of an asset is wrong. -/
  | asset (fault : Json.Fault)

def LoadError.message : LoadError → String
  | .unresolved id => "asset `" ++ id ++ "` could not be resolved"
  | .parse error => "invalid story: " ++ error.message
  | .asset fault => "invalid story asset: " ++ fault.message

namespace Source

variable {A : Type} [Shelved A] {S I : Type} [Runtime S I]

/--
The text of the story at a source. There is none in an asset of another type.
-/
def text? : Source A → Except LoadError (Option String)
  | .document text => .ok (some text)
  | .asset story => .ok (some story)
  | .reference ⟨id, none⟩ => .error (.unresolved id)
  | .reference ⟨_, some found⟩ => .ok (Shelved.story? found)

def create (source : Source A) (options : LoadOptions) : Except LoadError (Option (Tale I)) := do
  match ← source.text? with
  | none => return none
  | some text =>
    let story ← (Tale.ofText? text).mapError .parse
    return some (story.withFallbacks options.allowFallbacks)

/--
Makes the story of a source and starts it. Without a story there are only log messages.
-/
def start (source : Source A) (autoAdvance : Bool) : Routine S (Tale I) Unit := do
  let view ← Routine.perform .look
  match source.create view.options with
  | .ok (some story) => Routine.perform (.start story autoAdvance)
  | .ok none =>
    Routine.perform (.log .debug "asset does not contain a story")
    Routine.perform (.log .warn "The story source does not contain a story.")
  | .error error => Routine.perform (.log .error ("Failed to load the story: " ++ error.message))

end Source

end Parley.Ink
