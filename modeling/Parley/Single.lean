import Parley.Decimal

namespace Parley

inductive Magnitude where
  | nan
  | infinite (negative : Bool)
  | finite (negative : Bool) (value : Dyadic)
deriving DecidableEq, Repr

namespace Single

def parts (x : Float32) : Magnitude :=
  let bits := x.toBits.toNat
  let negative := decide (0x80000000 ≤ bits)
  let field := bits / 0x800000 % 0x100
  let fraction := bits % 0x800000
  if field = 255 then
    if fraction = 0 then .infinite negative else .nan
  else if field = 0 then
    .finite negative ⟨fraction, -149⟩
  else
    .finite negative ⟨fraction + 0x800000, Int.ofNat field - 150⟩

def ofWord (negative : Bool) (word : Nat) : Float32 :=
  Float32.ofBits (UInt32.ofNat (if negative then 0x80000000 + word else word))

/--
Puts a number together. The magnitude has to be one of `Binary.single`: the place counts the steps
above the bottom, and the leading bit of the mantissa carries into it.
-/
def ofDyadic (negative : Bool) (d : Dyadic) : Float32 :=
  ofWord negative ((d.place + 149).toNat * 0x800000 + d.mantissa)

def infinite (negative : Bool) : Float32 :=
  ofWord negative 0x7f800000

def nan : Float32 :=
  ofWord false 0x7fc00000

/--
The number for a rounded magnitude; one that was too large becomes infinite.
-/
def ofRounded (negative : Bool) : Option Dyadic → Float32
  | some d => ofDyadic negative d
  | none => infinite negative

def ofInt (n : Int) : Float32 :=
  ofRounded (decide (n < 0)) (Binary.single.round n.natAbs 1)

/--
The whole number towards zero, held within 32 bits; no number counts as zero.
-/
def truncate (x : Float32) : Int32 :=
  match parts x with
  | .nan => 0
  | .infinite true => Int32.minValue
  | .infinite false => Int32.maxValue
  | .finite true d => Int32.ofIntClamp (-Int.ofNat d.truncate)
  | .finite false d => Int32.ofIntClamp (Int.ofNat d.truncate)

/--
The remainder of a division whose quotient is cut towards zero, with the sign of the dividend.
-/
def remainder (x y : Float32) : Float32 :=
  match parts x, parts y with
  | .finite negative a, .finite _ b =>
    if b.mantissa = 0 then
      nan
    else
      let place := min a.place b.place
      let left := a.mantissa <<< (a.place - place).toNat
      let right := b.mantissa <<< (b.place - place).toNat
      ofRounded negative (Dyadic.round .single ⟨left % right, place⟩)
  | .finite negative a, .infinite _ => ofDyadic negative a
  | _, _ => nan

/--
Lays out a number: the sign, then what `layout` makes of the shortest decimal.
-/
def write (layout : Decimal → List Char) (x : Float32) : String :=
  match parts x with
  | .nan => "NaN"
  | .infinite negative => if negative then "-inf" else "inf"
  | .finite negative d =>
    let magnitude := layout (Decimal.shortest .single .up d)
    String.ofList (if negative then '-' :: magnitude else magnitude)

/--
The text of a number: never with an exponent, and without a point after a whole number.
-/
def text (x : Float32) : String :=
  write (fun d => d.positional []) x

/--
The text of a number in a diagnosis: whole numbers show a fractional digit, and numbers from 1e16 on
or below 1e-4 an exponent.
-/
def debugText (x : Float32) : String :=
  write layout x
where
  layout (d : Decimal) : List Char :=
    if d.digits ≠ 0 && (decide (d.magnitude < -4) || decide (16 ≤ d.magnitude)) then
      d.scientific []
    else
      d.positional ['.', '0']

def ofText? (text : String) : Option Float32 :=
  match text.toList with
  | '-' :: rest => magnitude? true rest
  | '+' :: rest => magnitude? false rest
  | rest => magnitude? false rest
where
  magnitude? (negative : Bool) (text : List Char) : Option Float32 :=
    if text = ['N', 'a', 'N'] then
      some nan
    else if text = ['i', 'n', 'f'] then
      some (infinite negative)
    else
      (Decimal.read? text).map fun d => ofRounded negative (d.round .single)

end Single

end Parley
