import Parley.Ink.Content

namespace Parley.Ink

/--
A place in a tree: the steps that lead down to it, the last one first.
-/
abbrev Place := List Component

def Node.at? (root : Node) : Place → Option Node
  | [] => some root
  | step :: outer => (root.at? outer).bind (·.child? step)

def Node.hasContainer (root : Node) (place : Place) : Bool :=
  (root.at? place).any Node.isContainer

def Node.contentAt (root : Node) (place : Place) : List Node :=
  ((root.at? place).map Node.content).getD []

/--
The components that lead to a place as they are written, the last one first: containers go by their
names.
-/
def Node.componentsTo (root : Node) : Place → List Component
  | [] => []
  | step :: outer =>
    (((root.at? (step :: outer)).bind Node.name?).map Component.name).getD step ::
      root.componentsTo outer

def Node.pathTo (root : Node) (place : Place) : Path :=
  ⟨false, (root.componentsTo place).reverse, none⟩

def Node.pathText (root : Node) (place : Place) : String :=
  (root.pathTo place).text

/--
Follows a path as far as it goes. The flag says whether that was all the way. An item that is no
container can only be the last one on the way.
-/
def Node.follow (root : Node) : Place → List Component → Place × Bool
  | place, [] => (place, true)
  | place, component :: rest =>
    if component = .parent then
      match place with
      | [] => (place, false)
      | _ :: outer => root.follow outer rest
    else
      match (root.at? place).bind (·.step? component) with
      | none => (place, false)
      | some step =>
        if rest.isEmpty || root.hasContainer (step :: place) then
          root.follow (step :: place) rest
        else
          (place, false)

/--
Follows a path from the item at a place. The first step of a relative path leads to the container of
the item.
-/
def Node.followFrom (root : Node) (item : Place) (path : Path) : Place :=
  if path.isRelative then
    (root.follow item.tail path.components.tail).1
  else
    (root.follow [] path.components).1

/--
A position in a container, or the container itself if there is no index.
-/
structure Pointer where
  container : Place
  index : Option Nat
deriving DecidableEq, Repr

namespace Pointer

def startOf (container : Place) : Pointer := ⟨container, some 0⟩

/--
The place that a pointer points to. A container without content is itself pointed to.
-/
def place? (root : Node) (p : Pointer) : Option Place :=
  match p.index with
  | none => some p.container
  | some i =>
    let content := root.contentAt p.container
    if content.isEmpty then
      some p.container
    else if i < content.length then
      some (.index i :: p.container)
    else
      none

def text (root : Node) (p : Pointer) : String :=
  let steps := root.componentsTo p.container
  (Path.mk false (p.index.toList.map Component.index ++ steps).reverse none).text

/--
The pointer to a position, or behind the containers that end before it.
-/
def settle (root : Node) : Place → Nat → Option Pointer
  | [], i => if i < (root.contentAt []).length then some ⟨[], some i⟩ else none
  | step :: outer, i =>
    if i < (root.contentAt (step :: outer)).length then
      some ⟨step :: outer, some i⟩
    else
      match step with
      | .index k => settle root outer (k + 1)
      | .name _ => none

/--
The pointer behind a pointer, if there is content in the enclosing containers.
-/
def next (root : Node) (p : Pointer) : Option Pointer :=
  settle root p.container (match p.index with | none => 0 | some i => i + 1)

/--
The pointer for a path from the root. There is none when the path does not lead to a container.
-/
def ofPath (root : Node) (path : Path) : Except String (Option Pointer) :=
  let steps := path.components
  match steps.getLast? with
  | none => .ok none
  | some (.index i) =>
    let (place, _) := root.follow [] steps.dropLast
    if place.isEmpty && 1 < steps.length then
      .error (lost path)
    else
      .ok (if root.hasContainer place then some ⟨place, some i⟩ else none)
  | some (.name _) =>
    let (place, _) := root.follow [] steps
    if place.isEmpty then
      .error (lost path)
    else
      .ok (if root.hasContainer place then some ⟨place, none⟩ else none)
where
  lost (path : Path) : String :=
    "Failed to find content at path '" ++ path.text ++
      "', and no approximation of it was possible."

/--
The pointer that a path in the item at a place leads to.
-/
def target (root : Node) (item : Place) (path : Path) : Option Pointer :=
  let place := root.followFrom item path
  match path.components.getLast? with
  | some (.index i) => if place.isEmpty then none else some ⟨place.tail, some i⟩
  | _ => if root.hasContainer place then some (startOf place) else none

end Pointer

/--
The shortest text of a path in the item at a place. A relative path stands for that of what it
points to, if it points to anything.
-/
def Node.compactText (root : Node) (place : Place) (path : Path) : String :=
  let target? :=
    if path.isRelative then (Pointer.target root place path).bind (·.place? root) else none
  ((target?.map root.pathTo).getD path).compactText (root.pathTo place)

end Parley.Ink
