import Parley.World

namespace Parley

/--
What the body of a host function may return to a story.
-/
class Returned (α : Type) where
  /-- The value that the story gets, if any. -/
  toValue : α → Option Value

namespace Returned

instance : Returned Unit := ⟨fun _ => none⟩

instance : Returned Value := ⟨some⟩

instance : Returned Int32 := ⟨fun n => some (.int n)⟩

instance : Returned Float32 := ⟨fun x => some (.float x)⟩

instance : Returned Bool := ⟨fun b => some (.bool b)⟩

instance : Returned String := ⟨fun s => some (.string s)⟩

instance {α : Type} [Returned α] : Returned (Option α) := ⟨fun x => x.bind toValue⟩

end Returned

/--
A function of the host. Without parameters it takes the arguments as they come; otherwise each
argument is converted to the kind of its parameter.
-/
structure Function (S : Type) where
  name : String
  parameters : Option (List Kind)
  body : List Value → S → Option Value × S

namespace Function

variable {S : Type}

def shown : Option Value → String
  | some value => "Some(" ++ value.debugText ++ ")"
  | none => "None"

/--
Converts arguments to the kinds of the parameters, or gives the first position that does not convert
with its kind and its argument. The arguments are those from the position `start` on.
-/
def convert (start : Nat) : List Kind → List Value → Except (Nat × Kind × Option Value) (List Value)
  | [], _ => .ok []
  | kind :: _, [] => .error (start, kind, none)
  | kind :: kinds, value :: values =>
    match value.coerce kind with
    | none => .error (start, kind, some value)
    | some converted => (convert (start + 1) kinds values).map (converted :: ·)

def run (f : Function S) (arguments : List Value) (w : World S) : Option Value × World S :=
  let (result, memory) := f.body arguments w.memory
  (result, { w with memory := memory }.record (.called f.name arguments result))

/--
Calls a function. The body runs when the arguments are as many as the parameters and all convert;
otherwise a warning is logged and there is no value.
-/
def call (f : Function S) (arguments : List Value) (w : World S) : Option Value × World S :=
  match f.parameters with
  | none => f.run arguments w
  | some kinds =>
    if arguments.length = kinds.length then
      match convert 0 kinds arguments with
      | .ok converted => f.run converted w
      | .error (position, kind, value) =>
        (none, w.log .warn ("External function `" ++ f.name ++ "` expects a " ++ kind.name ++
          " as argument " ++ toString position ++ ", got " ++ shown value ++ "."))
    else
      (none, w.log .warn ("External function `" ++ f.name ++ "` takes " ++ toString kinds.length ++
        " arguments but was called with " ++ toString arguments.length ++ "."))

end Function

end Parley
