import Parley.Single
import Parley.Text.Quoted

namespace Parley

inductive Kind where
  | int
  | float
  | string
  | bool
deriving DecidableEq, Repr

namespace Kind

def name : Kind → String
  | .int => "int"
  | .float => "float"
  | .string => "string"
  | .bool => "bool"

abbrev Carrier : Kind → Type
  | .int => Int32
  | .float => Float32
  | .string => String
  | .bool => Bool

/--
What stands in for a value of a kind that could not be read.
-/
def fallback : (k : Kind) → k.Carrier
  | .int => (0 : Int32)
  | .float => (0 : Float32)
  | .string => ""
  | .bool => false

end Kind

/--
A scalar value. Two values are equal as data when they agree in every bit; `Value.same` is the
comparison of their contents.
-/
inductive Value where
  | int (n : Int32)
  | float (x : Float32)
  | string (s : String)
  | bool (b : Bool)
deriving DecidableEq

namespace Value

def kind : Value → Kind
  | .int _ => .int
  | .float _ => .float
  | .string _ => .string
  | .bool _ => .bool

def ofCarrier : {k : Kind} → k.Carrier → Value
  | .int, n => .int n
  | .float, x => .float x
  | .string, s => .string s
  | .bool, b => .bool b

def get? : (k : Kind) → Value → Option k.Carrier
  | .int, .int n => some n
  | .float, .float x => some x
  | .string, .string s => some s
  | .bool, .bool b => some b
  | _, _ => none

def text : Value → String
  | .int n => toString n.toInt
  | .float x => Single.text x
  | .string s => s
  | .bool b => if b then "true" else "false"

def debugText : Value → String
  | .int n => "Int(" ++ toString n.toInt ++ ")"
  | .float x => "Float(" ++ Single.debugText x ++ ")"
  | .string s => "Str(" ++ Text.quoted s ++ ")"
  | .bool b => if b then "Bool(true)" else "Bool(false)"

/--
Whether two values have one kind and equal contents. Zero equals its negative, and what is not a
number equals nothing.
-/
def same : Value → Value → Bool
  | .int m, .int n => m = n
  | .float x, .float y => x == y
  | .string s, .string t => s = t
  | .bool b, .bool c => b = c
  | _, _ => false

/--
A number as a truth value. Only whole numbers are taken for one, and of them only one for true.
-/
def truth? : Value → Option Bool
  | .int n => some (decide (n = 1))
  | .bool b => some b
  | _ => none

/--
The value converted to the kind `k`: whole numbers, numbers and truth values convert into whole
numbers and numbers, and everything converts into text.
-/
def coerce (k : Kind) (v : Value) : Option Value :=
  match k, v with
  | .int, .int n => some (.int n)
  | .int, .float x => some (.int (Single.truncate x))
  | .int, .bool b => some (.int (if b then 1 else 0))
  | .float, .int n => some (.float (Single.ofInt n.toInt))
  | .float, .float x => some (.float x)
  | .float, .bool b => some (.float (Single.ofInt (if b then 1 else 0)))
  | .bool, v => v.truth?.map .bool
  | .string, v => some (.string v.text)
  | _, .string _ => none

@[simp]
theorem get?_ofCarrier {k : Kind} (x : k.Carrier) : get? k (ofCarrier x) = some x := by
  cases k <;> rfl

@[simp]
theorem kind_ofCarrier {k : Kind} (x : k.Carrier) : (ofCarrier x).kind = k := by
  cases k <;> rfl

theorem coerce_kind (v : Value) : v.coerce v.kind = some v := by
  cases v <;> rfl

end Value

end Parley
