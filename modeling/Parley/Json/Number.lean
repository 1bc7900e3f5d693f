import Parley.Json.Fault

/-!
This module contains the reading of JSON numbers. Digits are gathered into a word of 64 bits; once
it is full the other digits only count as places, so a number with more digits is approximate.
-/

namespace Parley.Json

inductive Number where
  | int (n : Int)
  | real (negative : Bool) (magnitude : Dyadic)
deriving DecidableEq, Repr

namespace Number

def found : Number → Found
  | .int n => .int n
  | .real negative d => .real negative d

def wordLimit : Nat := 0x10000000000000000

/--
Gathers digits into a word, and gives the digits back that no longer fit.
-/
def gather (word : Nat) : List Char → Nat × List Char
  | [] => (word, [])
  | c :: rest =>
    let next := 10 * word + (c.toNat - '0'.toNat)
    if next < wordLimit then gather next rest else (word, c :: rest)

/--
The nearest double to a power of ten up to 308.
-/
def powerOfTen (exponent : Nat) : Dyadic :=
  (Binary.double.round (Nat.pow 10 exponent) 1).getD ⟨0, 0⟩

def product (x y : Dyadic) : Option Dyadic :=
  Dyadic.round .double ⟨x.mantissa * y.mantissa, x.place + y.place⟩

def quotient (x y : Dyadic) : Option Dyadic :=
  Binary.double.round (x.ratio.1 * y.ratio.2) (x.ratio.2 * y.ratio.1)

/--
The double for `word * 10 ^ exponent`: the word is rounded, then scaled by a rounded power of ten. A
number that is too large has none.
-/
def scale (word : Nat) (exponent : Int) : Option Dyadic :=
  (Binary.double.round word 1).bind fun d => go (exponent.natAbs / 308 + 1) d exponent
where
  go (fuel : Nat) (d : Dyadic) (exponent : Int) : Option Dyadic :=
    if exponent.natAbs ≤ 308 then
      if 0 ≤ exponent then product d (powerOfTen exponent.natAbs)
      else quotient d (powerOfTen exponent.natAbs)
    else if d.mantissa = 0 then
      some d
    else if 0 ≤ exponent then
      none
    else
      match fuel with
      | 0 => some ⟨0, 0⟩
      | fuel + 1 => (quotient d (powerOfTen 308)).bind fun d => go fuel d (exponent + 308)

def finish (negative : Bool) (word : Nat) (exponent : Int) (rest : List Char) :
    Except Fault (Number × List Char) :=
  match scale word exponent with
  | some d => .ok (.real negative d, rest)
  | none => .error .numberOutOfRange

def readExponent (negative : Bool) (word : Nat) (exponent : Int) (text : List Char) :
    Except Fault (Number × List Char) :=
  match text with
  | mark :: rest =>
    if mark = 'e' || mark = 'E' then
      let (minus, rest) :=
        match rest with
        | '+' :: rest => (false, rest)
        | '-' :: rest => (true, rest)
        | rest => (false, rest)
      match rest.takeWhile Char.isDigit, rest with
      | [], [] => .error .endOfValue
      | [], _ :: _ => .error .invalidNumber
      | digits, _ =>
        let shift := Int.ofNat (Decimal.valueFrom 0 digits)
        finish negative word (if minus then exponent - shift else exponent + shift)
          (rest.dropWhile Char.isDigit)
    else
      finish negative word exponent text
  | [] => finish negative word exponent text

def readFraction (negative : Bool) (word : Nat) (exponent : Int) (text : List Char) :
    Except Fault (Number × List Char) :=
  let digits := text.takeWhile Char.isDigit
  let rest := text.dropWhile Char.isDigit
  if digits.isEmpty then
    .error (if rest.isEmpty then .endOfValue else .invalidNumber)
  else
    let (word, left) := gather word digits
    readExponent negative word (exponent - (digits.length - left.length)) rest

/--
A whole number without fraction and exponent. Zero with a sign, and what is too far below zero, are
not whole.
-/
def whole (negative : Bool) (word : Nat) : Number :=
  if negative then
    if word = 0 || wordLimit / 2 < word then
      .real true ((Binary.double.round word 1).getD ⟨0, 0⟩)
    else
      .int (-Int.ofNat word)
  else
    .int word

def read (negative : Bool) (text : List Char) : Except Fault (Number × List Char) :=
  let digits := text.takeWhile Char.isDigit
  let rest := text.dropWhile Char.isDigit
  match digits with
  | [] => .error (if rest.isEmpty then .endOfValue else .invalidNumber)
  | first :: more =>
    if first = '0' && !more.isEmpty then
      .error .invalidNumber
    else
      let (word, left) := gather 0 digits
      match rest with
      | '.' :: rest => readFraction negative word left.length rest
      | mark :: _ =>
        if mark = 'e' || mark = 'E' || !left.isEmpty then
          readExponent negative word left.length rest
        else
          .ok (whole negative word, rest)
      | [] =>
        if left.isEmpty then .ok (whole negative word, rest)
        else readExponent negative word left.length rest

def skip (text : List Char) : Except Fault (List Char) :=
  let digits := text.takeWhile Char.isDigit
  let rest := text.dropWhile Char.isDigit
  match digits with
  | [] => .error .invalidNumber
  | first :: more =>
    if first = '0' && !more.isEmpty then
      .error .invalidNumber
    else
      match rest with
      | '.' :: rest =>
        if (rest.takeWhile Char.isDigit).isEmpty then
          .error .invalidNumber
        else
          skipExponent (rest.dropWhile Char.isDigit)
      | rest => skipExponent rest
where
  skipExponent (text : List Char) : Except Fault (List Char) :=
    match text with
    | mark :: rest =>
      if mark = 'e' || mark = 'E' then
        let rest :=
          match rest with
          | '+' :: rest => rest
          | '-' :: rest => rest
          | rest => rest
        if (rest.takeWhile Char.isDigit).isEmpty then
          .error .invalidNumber
        else
          .ok (rest.dropWhile Char.isDigit)
      else
        .ok text
    | [] => .ok text

end Number

end Parley.Json
