import Parley.Decimal
import Parley.Text.Lines

namespace Parley.Ink

/--
One step of a path: the position of an item in its container, or a name. The name `^` goes up to the
parent.
-/
inductive Component where
  | index (n : Nat)
  | name (s : String)
deriving DecidableEq, Repr, Inhabited

namespace Component

def positionLimit : Nat := 0x10000000000000000

/--
A component as it is written. Digits are a position, also behind a plus sign; those of a number that
is too large for one are a name.
-/
def ofText (text : String) : Component :=
  let digits :=
    match text.toList with
    | '+' :: rest => rest
    | all => all
  let position := Decimal.valueFrom 0 digits
  if digits.isEmpty || digits.any (fun c => !c.isDigit) || positionLimit ≤ position then
    .name text
  else
    .index position

def text : Component → String
  | .index n => toString n
  | .name s => s

def parent : Component := .name "^"

end Component

/--
A path from the root of a story or, if it is relative, from the item that holds it. One that was
read keeps its text, which does not count when paths are compared.
-/
structure Path where
  isRelative : Bool
  components : List Component
  written : Option String := none
deriving DecidableEq, Repr, Inhabited

namespace Path

/--
The path of a text. Steps are set apart by dots, and a dot in front makes a path relative; that dot
is not kept.
-/
def ofText (text : String) : Path :=
  match text.toList with
  | [] => ⟨false, [], some text⟩
  | '.' :: rest =>
    let written := String.ofList rest
    ⟨true, (Text.parts '.' written).map .ofText, some written⟩
  | _ => ⟨false, (Text.parts '.' text).map .ofText, some text⟩

def text (p : Path) : String :=
  match p.written with
  | some written => written
  | none => (if p.isRelative then "." else "") ++ ".".intercalate (p.components.map Component.text)

def same (p q : Path) : Bool :=
  p.isRelative = q.isRelative && p.components = q.components

def shared : List Component → List Component → Nat
  | c :: cs, d :: ds => if c = d then shared cs ds + 1 else 0
  | _, _ => 0

/--
A path from the root as it is taken from the item at the path `own`: up to the last step that both
share, and down from there. A path that shares nothing with `own` stays as it is.
-/
def relativeTo (p own : Path) : Path :=
  match shared own.components p.components with
  | 0 => p
  | count =>
    ⟨true, List.replicate (own.components.length - count) .parent ++ p.components.drop count, none⟩

/--
A relative path as it is taken from the root, when the item that holds it is at the path `own`.
-/
def after (p own : Path) : Path :=
  let up := (p.components.takeWhile (· = .parent)).length
  ⟨false, own.components.take (own.components.length - up) ++ p.components.drop up, none⟩

/--
The shortest text of a path in the item at the path `own`: that from the root, or the relative one
if that is shorter.
-/
def compactText (p own : Path) : String :=
  let (relative, whole) :=
    if p.isRelative then (p.text, (p.after own).text) else ((p.relativeTo own).text, p.text)
  if relative.utf8ByteSize < whole.utf8ByteSize then relative else whole

end Path

end Parley.Ink
