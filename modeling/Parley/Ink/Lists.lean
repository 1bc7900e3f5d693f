import Parley.Text.Lines

namespace Parley.Ink

/--
An item of a list: the list that defines it, its name there and its value.
-/
structure ListItem where
  origin : String
  name : String
  value : Int32
deriving DecidableEq, Repr

namespace ListItem

def ofFullName (fullName : String) (value : Int32) : ListItem :=
  match Text.parts '.' fullName with
  | origin :: name :: _ => ⟨origin, name, value⟩
  | _ => ⟨"", fullName, value⟩

def fullName (i : ListItem) : String :=
  if i.origin.isEmpty then i.name else i.origin ++ "." ++ i.name

def same (i j : ListItem) : Bool :=
  i.origin = j.origin && i.name = j.name

end ListItem

/--
A selection of items, perhaps of several lists. None occurs twice.
-/
abbrev Selection := List ListItem

namespace Selection

def holds (s : Selection) (i : ListItem) : Bool :=
  s.any (·.same i)

def without (s t : Selection) : Selection :=
  s.filter fun i => !t.holds i

def union (s t : Selection) : Selection :=
  s.without t ++ t

def same (s t : Selection) : Bool :=
  s.length = t.length && s.all t.holds

def lowest? (s : Selection) : Option Int :=
  (s.map (·.value.toInt)).min?

def highest? (s : Selection) : Option Int :=
  (s.map (·.value.toInt)).max?

/--
Whether all values of a selection are greater than those of another one. Without items a selection
is the least, but not less than itself.
-/
def isAbove (s t : Selection) : Bool :=
  match s.lowest?, t.highest? with
  | none, _ => false
  | some _, none => true
  | some low, some high => high < low

/--
Whether neither the smallest nor the greatest value of a selection is less than that of another one.
Without items a selection is never at least another one.
-/
def isAtLeast (s t : Selection) : Bool :=
  match s.lowest?, t.lowest?, s.highest?, t.highest? with
  | some low, some otherLow, some high, some otherHigh => otherLow ≤ low && otherHigh ≤ high
  | some _, _, _, _ => true
  | none, _, _, _ => false

/--
The text of a selection: the names of its items in the order of their values, those of one value in
the order of their lists.
-/
def text (s : Selection) : String :=
  let isBefore (i j : ListItem) : Bool :=
    i.value < j.value || (i.value = j.value && i.origin ≤ j.origin)
  ", ".intercalate ((s.mergeSort isBefore).map (·.name))

end Selection

structure ListDefinition where
  name : String
  items : List (String × Int32)
deriving Repr

abbrev Lists := List ListDefinition

namespace Lists

/--
The item that goes by a full name, or by its own name alone. Of several lists with an item of that
name the last one counts.
-/
def item? (lists : Lists) (name : String) : Option ListItem :=
  let entries := lists.flatMap fun list => list.items.flatMap fun (own, value) =>
    let item : ListItem := ⟨list.name, own, value⟩
    [(own, item), (item.fullName, item)]
  entries.reverse.lookup name

/--
The items whose values are `distance` away from those of a selection, each in its own list. Where
there is none an item is dropped.
-/
def shift (lists : Lists) (s : Selection) (distance : Int32) : Selection :=
  s.filterMap fun i => do
    let list ← lists.find? (·.name = i.origin)
    let (name, value) ← list.items.find? (·.2 = i.value + distance)
    return ⟨i.origin, name, value⟩

end Lists

end Parley.Ink
