namespace Parley

structure Line where
  text : String
  tags : List String
deriving DecidableEq, Repr, Inhabited

/--
The line for a text as a story gives it: one newline at the end is dropped.
-/
def Line.ofText (text : String) (tags : List String) : Line :=
  match text.toList.reverse with
  | '\n' :: rest => ⟨String.ofList rest.reverse, tags⟩
  | _ => ⟨text, tags⟩

structure Choice where
  index : Nat
  text : String
  tags : List String
deriving DecidableEq, Repr, Inhabited

def Choice.numbered (texts : List String) : List Choice :=
  texts.mapIdx fun index text => ⟨index, text, []⟩

end Parley
