import Parley.Binary

namespace Parley

/--
A decimal magnitude, `digits * 10 ^ exponent`.
-/
structure Decimal where
  digits : Nat
  exponent : Int
deriving DecidableEq, Repr

namespace Decimal

/--
Which of two decimals of one length is taken when the binary value lies right between them.
-/
inductive Tie where
  /-- The greater one. -/
  | up
  /-- The one whose last digit is even. -/
  | even
deriving DecidableEq, Repr

/--
The decimal with the fewest digits that rounds to `d` in the format `b`, and among those the one
nearest to `d`. All bounds are counted in quarters of the last place of `d`.
-/
def shortest (b : Binary) (tie : Tie) (d : Dyadic) : Decimal :=
  if d.mantissa = 0 then ⟨0, 0⟩ else go 800 start
where
  /-- An exponent at which one unit exceeds `d`. -/
  start : Int :=
    (Int.ofNat d.mantissa.log2 + d.place) * 30103 / 100000 + 2
  /-- The multiplier of a quarter of the last place over `10 ^ exponent`. -/
  unit (exponent : Int) : Nat × Nat :=
    let place := d.place - 2
    (Nat.pow 2 place.toNat * Nat.pow 10 (-exponent).toNat,
      Nat.pow 2 (-place).toNat * Nat.pow 10 exponent.toNat)
  /-- How far the values that round to `d` reach downwards: less where the places below are
  finer. -/
  below : Nat :=
    if d.mantissa = Nat.pow 2 (b.precision - 1) && decide (b.bottom < d.place) then 1 else 2
  /-- Whether `digits * 10 ^ exponent` rounds to `d`. -/
  hits (num den digits : Nat) : Bool :=
    let lower := (4 * d.mantissa - below) * num
    let upper := (4 * d.mantissa + 2) * num
    if d.mantissa % 2 = 0 then
      decide (lower ≤ digits * den) && decide (digits * den ≤ upper)
    else
      decide (lower < digits * den) && decide (digits * den < upper)
  /-- Tries the two neighbours of `d` on ever finer decimal grids. -/
  go (fuel : Nat) (exponent : Int) : Decimal :=
    let (num, den) := unit exponent
    let value := 4 * d.mantissa * num
    let floor := value / den
    match fuel with
    | 0 => ⟨floor, exponent⟩
    | fuel + 1 =>
      match hits num den floor, hits num den (floor + 1) with
      | false, false => go fuel (exponent - 1)
      | true, false => ⟨floor, exponent⟩
      | false, true => ⟨floor + 1, exponent⟩
      | true, true =>
        let rest := 2 * (value % den)
        if rest < den then
          ⟨floor, exponent⟩
        else if den < rest then
          ⟨floor + 1, exponent⟩
        else
          match tie with
          | .up => ⟨floor + 1, exponent⟩
          | .even => ⟨floor + floor % 2, exponent⟩

def figures (d : Decimal) : List Char :=
  Nat.toDigits 10 d.digits

/--
The power of ten of the digit before the point in scientific layout.
-/
def magnitude (d : Decimal) : Int :=
  d.exponent + d.figures.length - 1

/--
A decimal written without exponent; `whole` follows a number without fractional digits.
-/
def positional (d : Decimal) (whole : List Char) : List Char :=
  let figures := d.figures
  if 0 ≤ d.exponent then
    (if d.digits = 0 then ['0'] else figures ++ List.replicate d.exponent.toNat '0') ++ whole
  else
    let places := (-d.exponent).toNat
    if places < figures.length then
      figures.take (figures.length - places) ++ '.' :: figures.drop (figures.length - places)
    else
      '0' :: '.' :: (List.replicate (places - figures.length) '0' ++ figures)

/--
A decimal written with one digit before the point and an exponent; `plus` is the sign of an exponent
that is not negative.
-/
def scientific (d : Decimal) (plus : List Char) : List Char :=
  let mantissa :=
    match d.figures with
    | first :: rest@(_ :: _) => first :: '.' :: rest
    | figures => figures
  mantissa ++ 'e' :: ((if d.magnitude < 0 then [] else plus) ++ (toString d.magnitude).toList)

/--
The value of a list of decimal digits, appended to `start`.
-/
def valueFrom (start : Nat) (digits : List Char) : Nat :=
  digits.foldl (fun value c => 10 * value + (c.toNat - '0'.toNat)) start

/--
Reads digits with an optional fraction and an optional exponent, all of `text`.
-/
def read? (text : List Char) : Option Decimal := do
  let whole := text.takeWhile Char.isDigit
  let rest := text.dropWhile Char.isDigit
  let (fraction, rest) :=
    match rest with
    | '.' :: rest => (rest.takeWhile Char.isDigit, rest.dropWhile Char.isDigit)
    | _ => ([], rest)
  if whole.isEmpty && fraction.isEmpty then none
  let shift ← exponent? rest
  some ⟨valueFrom 0 (whole ++ fraction), shift - fraction.length⟩
where
  /-- Reads the digits of an exponent. -/
  count? (digits : List Char) : Option Nat :=
    if digits.isEmpty || digits.any (fun c => !c.isDigit) then none else some (valueFrom 0 digits)
  /-- Reads an exponent with its mark, or nothing at all. -/
  exponent? (text : List Char) : Option Int :=
    match text with
    | [] => some 0
    | mark :: rest =>
      if mark = 'e' || mark = 'E' then
        match rest with
        | '+' :: digits => (count? digits).map Int.ofNat
        | '-' :: digits => (count? digits).map fun n => -Int.ofNat n
        | digits => (count? digits).map Int.ofNat
      else
        none

/--
The value of the format `b` nearest to a decimal, or nothing when that is too large for `b`.
Decimals far outside of every format are told apart by their magnitude alone.
-/
def round (b : Binary) (d : Decimal) : Option Dyadic :=
  if d.digits = 0 then
    some ⟨0, b.bottom⟩
  else if d.magnitude < -400 then
    some ⟨0, b.bottom⟩
  else if 400 < d.magnitude then
    none
  else if 0 ≤ d.exponent then
    b.round (d.digits * Nat.pow 10 d.exponent.toNat) 1
  else
    b.round d.digits (Nat.pow 10 (-d.exponent).toNat)

end Decimal

end Parley
