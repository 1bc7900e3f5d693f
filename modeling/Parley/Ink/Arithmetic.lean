import Parley.Ink.Content

/-!
This module contains the operators of ink expressions. The operands are first brought to the widest
of their types: whole numbers are narrower than numbers, and these narrower than texts; truth values
count as whole numbers. Selections of items of lists have operators of their own.
-/

namespace Parley.Ink

/--
How wide the type of a datum is. Whole numbers are the narrowest type to which operands are brought.
-/
def Datum.width : Datum → Nat
  | .scalar (.bool _) | .scalar (.int _) => 1
  | .scalar (.float _) => 2
  | .list _ => 3
  | .scalar (.string _) => 4
  | .target _ => 5

def Datum.isList : Datum → Bool
  | .list _ => true
  | _ => false

def Datum.typeName : Datum → String
  | .scalar (.bool _) => "bool"
  | .scalar (.int _) => "int"
  | .scalar (.float _) => "float"
  | .scalar (.string _) => "string"
  | .list _ => "list"
  | .target _ => "divert"

/--
Brings a datum to a width, which is at least its own.
-/
def Datum.widen (width : Nat) (d : Datum) : Except String Datum :=
  if d.width = width then
    match d with
    | .scalar (.bool b) => .ok (.scalar (.int (if b then 1 else 0)))
    | d => .ok d
  else
    let converted :=
      match width, d with
      | 2, .scalar v => v.coerce .float
      | 4, .scalar v => v.coerce .string
      | _, _ => none
    match converted with
    | some v => .ok (.scalar v)
    | none => .error ("Cast not allowed for " ++ d.typeName)

/--
Whether a datum counts as true. A place counts as neither, which is a failure with a message of its
own.
-/
def Datum.isTruthy (message : Path → String) : Datum → Except String Bool
  | .scalar (.bool b) => .ok b
  | .scalar (.int n) => .ok (n ≠ 0)
  | .scalar (.float x) => .ok (x != 0)
  | .scalar (.string s) => .ok (!s.isEmpty)
  | .list items => .ok (!items.isEmpty)
  | .target path => .error (message path)

namespace Operator

def unavailable {α : Type} : Except String α :=
  .error "Operation not available for type."

def truth (b : Bool) : Except String Datum :=
  .ok (.scalar (.bool b))

def onInts (o : Operator) (m n : Int32) : Except String Datum :=
  match o with
  | .add => .ok (.scalar (.int (m + n)))
  | .subtract => .ok (.scalar (.int (m - n)))
  | .multiply => .ok (.scalar (.int (m * n)))
  | .divide => .ok (.scalar (.int (m / n)))
  | .remainder => .ok (.scalar (.int (m % n)))
  | .equal => truth (m = n)
  | .notEqual => truth (m ≠ n)
  | .greater => truth (m > n)
  | .less => truth (m < n)
  | .atLeast => truth (m ≥ n)
  | .atMost => truth (m ≤ n)
  | .and => truth (m ≠ 0 && n ≠ 0)
  | .or => truth (m ≠ 0 || n ≠ 0)
  | .not => unavailable

def onFloats (o : Operator) (x y : Float32) : Except String Datum :=
  match o with
  | .add => .ok (.scalar (.float (x + y)))
  | .subtract => .ok (.scalar (.float (x - y)))
  | .multiply => .ok (.scalar (.float (x * y)))
  | .divide => .ok (.scalar (.float (x / y)))
  | .remainder => .ok (.scalar (.float (Single.remainder x y)))
  | .equal => truth (x == y)
  | .notEqual => truth (x != y)
  | .greater => truth (x > y)
  | .less => truth (x < y)
  | .atLeast => truth (x ≥ y)
  | .atMost => truth (x ≤ y)
  | .and => truth (x != 0 && y != 0)
  | .or => truth (x != 0 || y != 0)
  | .not => unavailable

def onStrings (o : Operator) (s t : String) : Except String Datum :=
  match o with
  | .add => .ok (.scalar (.string (s ++ t)))
  | .equal => truth (s = t)
  | .notEqual => truth (s ≠ t)
  | _ => unavailable

def onTargets (o : Operator) (p q : Path) : Except String Datum :=
  match o with
  | .equal => truth (p.same q)
  | .notEqual => truth (!p.same q)
  | _ => unavailable

def onLists (o : Operator) (s t : Selection) : Except String Datum :=
  match o with
  | .add => .ok (.list (s.union t))
  | .subtract => .ok (.list (s.without t))
  | .equal => truth (s.same t)
  | .notEqual => truth (!s.same t)
  | .greater => truth (s.isAbove t)
  | .less => truth (t.isAbove s)
  | .atLeast => truth (s.isAtLeast t)
  | .atMost => truth (t.isAtLeast s)
  | .and => truth (!s.isEmpty && !t.isEmpty)
  | .or => truth (!s.isEmpty || !t.isEmpty)
  | .multiply | .divide | .remainder | .not => unavailable

/--
An operator on two operands of which one at least is a selection. Whole numbers shift a selection,
and every operand counts as true or false; for that the second one is only looked at if the first
one does not decide.
-/
def withList (lists : Lists) (o : Operator) (x y : Datum) : Except String Datum :=
  match o, x, y with
  | o, .list s, .list t => o.onLists s t
  | .add, .list s, .scalar (.int n) => .ok (.list (lists.shift s n))
  | .subtract, .list s, .scalar (.int n) => .ok (.list (lists.shift s (-n)))
  | .and, x, y => do if ← isTrue x then truth (← isTrue y) else truth false
  | .or, x, y => do if ← isTrue x then truth true else truth (← isTrue y)
  | o, x, y =>
    .error ("Can not call use '" ++ o.token ++ "' operation on " ++ x.text ++ " and " ++ y.text)
where
  isTrue : Datum → Except String Bool :=
    Datum.isTruthy fun _ => "Shouldn't be checking the truthiness of a divert target"

def negate : Datum → Except String Datum
  | .scalar (.bool b) => truth (!b)
  | .scalar (.int n) => truth (n = 0)
  | .scalar (.float x) => truth (x == 0)
  | .list items => .ok (.scalar (.int (if items.isEmpty then 1 else 0)))
  | _ => unavailable

def apply (lists : Lists) (o : Operator) (operands : List Datum) : Except String Datum :=
  match operands with
  | [x] => if o.arity = 1 then negate x else unavailable
  | [x, y] => do
    if x.isList || y.isList then
      o.withList lists x y
    else
      let width := max x.width y.width
      match ← x.widen width, ← y.widen width with
      | .scalar (.int m), .scalar (.int n) => o.onInts m n
      | .scalar (.float x), .scalar (.float y) => o.onFloats x y
      | .scalar (.string s), .scalar (.string t) => o.onStrings s t
      | .target p, .target q => o.onTargets p q
      | _, _ => unavailable
  | _ => .error "Unexpected number of parameters"

end Operator

end Parley.Ink
