/-!
This module contains binary floating formats in exact arithmetic: a finite value is a whole number
of units of some power of two, and `Binary.round` finds the value of a format that is nearest to a
given ratio. Both the reading and the printing of decimals go through it.
-/

namespace Parley

/--
A binary floating format: how many bits a value carries, the place of the last bit of the smallest
values, and the power of two from which on a value is too large.
-/
structure Binary where
  precision : Nat
  bottom : Int
  limit : Nat
deriving DecidableEq, Repr

/--
A finite magnitude, `mantissa * 2 ^ place`.
-/
structure Dyadic where
  mantissa : Nat
  place : Int
deriving DecidableEq, Repr

namespace Binary

def single : Binary := ⟨24, -149, 128⟩

def double : Binary := ⟨53, -1074, 1024⟩

/--
The whole number nearest to `num / den`, an even one where two are equally near.
-/
def nearest (num den : Nat) : Nat :=
  let quotient := num / den
  let twice := 2 * (num % den)
  if twice < den then
    quotient
  else if den < twice then
    quotient + 1
  else
    quotient + quotient % 2

def highest (num den : Nat) : Int :=
  let guess : Int := Int.ofNat num.log2 - Int.ofNat den.log2
  let reached :=
    if 0 ≤ guess then decide (den <<< guess.toNat ≤ num) else decide (den ≤ num <<< (-guess).toNat)
  if reached then guess else guess - 1

/--
A magnitude whose mantissa has been rounded up to one bit more than the format `b` carries, with the
leading bit alone at the next place. Other magnitudes stay as they are.
-/
def carry (b : Binary) (d : Dyadic) : Dyadic :=
  if d.mantissa = Nat.pow 2 b.precision then ⟨Nat.pow 2 (b.precision - 1), d.place + 1⟩ else d

/--
The value of the format `b` nearest to `num / den`, or nothing when that is too large for `b`.
-/
def round (b : Binary) (num den : Nat) : Option Dyadic :=
  if num = 0 then
    some ⟨0, b.bottom⟩
  else
    let place := max (highest num den - b.precision + 1) b.bottom
    let mantissa :=
      if 0 ≤ place then nearest num (den <<< place.toNat) else nearest (num <<< (-place).toNat) den
    if Int.ofNat b.limit ≤ Int.ofNat mantissa.log2 + place then
      none
    else
      some (b.carry ⟨mantissa, place⟩)

end Binary

namespace Dyadic

def ratio (d : Dyadic) : Nat × Nat :=
  if 0 ≤ d.place then (d.mantissa <<< d.place.toNat, 1) else (d.mantissa, 1 <<< (-d.place).toNat)

def round (b : Binary) (d : Dyadic) : Option Dyadic :=
  b.round d.ratio.1 d.ratio.2

def truncate (d : Dyadic) : Nat :=
  d.ratio.1 / d.ratio.2

end Dyadic

end Parley
