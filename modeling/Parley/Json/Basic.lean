import Parley.Decimal

namespace Parley

/--
A JSON document. Whole numbers of 64 bits stay whole, and every other number is kept as the nearest
magnitude of `Binary.double`. No name occurs twice in an object; in one that was read from a text
the members are in the order of their names.
-/
inductive Json where
  | null
  | bool (b : Bool)
  | int (n : Int)
  | real (negative : Bool) (magnitude : Dyadic)
  | string (s : String)
  | array (items : List Json)
  | object (members : List (String × Json))
deriving Repr, Inhabited

namespace Json

/--
Adds a member to an object in the order of the names; a member of that name is replaced.
-/
def insert {α : Type} (name : String) (value : α) : List (String × α) → List (String × α)
  | [] => [(name, value)]
  | (other, old) :: rest =>
    if name = other then
      (name, value) :: rest
    else if name < other then
      (name, value) :: (other, old) :: rest
    else
      (other, old) :: insert name value rest

def field? (name : String) : Json → Option Json
  | .object members => members.lookup name
  | _ => none

/--
The text of a number that is not whole, or that was written as if it were not: up to sixteen digits
before the point and four zeros behind it are written out, and other numbers get an exponent with
its sign.
-/
def realText (negative : Bool) (d : Dyadic) : List Char :=
  let decimal := Decimal.shortest .double .even d
  let scale := decimal.magnitude + 1
  let magnitude :=
    if d.mantissa = 0 || (decide (-5 < scale) && decide (scale ≤ 16)) then
      decimal.positional ['.', '0']
    else
      decimal.scientific ['+']
  if negative then '-' :: magnitude else magnitude

def escape (c : Char) : List Char :=
  match c with
  | '"' => ['\\', '"']
  | '\\' => ['\\', '\\']
  | '\n' => ['\\', 'n']
  | '\r' => ['\\', 'r']
  | '\t' => ['\\', 't']
  | '\x08' => ['\\', 'b']
  | '\x0c' => ['\\', 'f']
  | c =>
    if c.toNat < 0x20 then
      ['\\', 'u', '0', '0', Nat.digitChar (c.toNat / 16), Nat.digitChar (c.toNat % 16)]
    else
      [c]

def stringText (s : String) : List Char :=
  '"' :: (s.toList.flatMap escape ++ ['"'])

def commaSeparated : List (List Char) → List Char
  | [] => []
  | [text] => text
  | text :: rest => text ++ ',' :: commaSeparated rest

mutual

def characters : Json → List Char
  | .null => "null".toList
  | .bool true => "true".toList
  | .bool false => "false".toList
  | .int n => (toString n).toList
  | .real negative d => realText negative d
  | .string s => stringText s
  | .array items => '[' :: (commaSeparated (itemTexts items) ++ [']'])
  | .object members => '\x7b' :: (commaSeparated (memberTexts members) ++ ['\x7d'])

def itemTexts : List Json → List (List Char)
  | [] => []
  | item :: rest => characters item :: itemTexts rest

def memberTexts : List (String × Json) → List (List Char)
  | [] => []
  | (name, value) :: rest => (stringText name ++ ':' :: characters value) :: memberTexts rest

end

def text (j : Json) : String :=
  String.ofList j.characters

end Json

end Parley
