import Parley.Json.Reader
import Parley.Proofs.Decimal

namespace Parley.Json

/--
Whether a text goes on with something that cannot belong to a number before it.
-/
def Closes (rest : List Char) : Prop :=
  ∀ c ∈ rest.head?, c.isDigit = false ∧ c ≠ '.' ∧ c ≠ 'e' ∧ c ≠ 'E'

section Digits

variable {digits rest : List Char}

theorem takeWhile_digits (hdigits : ∀ c ∈ digits, c.isDigit = true)
    (hrest : ∀ c ∈ rest.head?, c.isDigit = false)
    : (digits ++ rest).takeWhile Char.isDigit = digits := by
  rw [List.takeWhile_append_of_pos hdigits]
  cases rest with
  | nil => simp
  | cons c rest => simp [hrest c rfl]

theorem dropWhile_digits (hdigits : ∀ c ∈ digits, c.isDigit = true)
    (hrest : ∀ c ∈ rest.head?, c.isDigit = false)
    : (digits ++ rest).dropWhile Char.isDigit = rest := by
  rw [List.dropWhile_append_of_pos hdigits]
  cases rest with
  | nil => rfl
  | cons c rest => simp [hrest c rfl]

theorem isDigit_toDigits (n : Nat) : ∀ c ∈ Nat.toDigits 10 n, c.isDigit = true := by
  intro c hc
  exact Nat.isDigit_of_mem_toDigits (by decide) (by decide) hc

theorem head_toDigits {n : Nat} (hn : n ≠ 0) : (Nat.toDigits 10 n).head? ≠ some '0' := by
  induction n using Nat.strongRecOn with
  | ind n ih =>
    by_cases hlt : n < 10
    . rw [Nat.toDigits_of_lt_base hlt]
      simp [Nat.digitChar_eq_zero, hn]
    . have hne : Nat.toDigits 10 (n / 10) ≠ [] := Nat.toDigits_ne_nil
      rw [Nat.toDigits_of_base_le (by decide) (by omega)]
      have hhead := ih (n / 10) (by omega) (by omega)
      cases hdigits : Nat.toDigits 10 (n / 10) with
      | nil => exact absurd hdigits hne
      | cons first more =>
        rw [hdigits] at hhead
        exact hhead

theorem length_of_head_toDigits {n : Nat} (hhead : (Nat.toDigits 10 n).head? = some '0')
    : (Nat.toDigits 10 n).length = 1 := by
  by_cases hn : n = 0
  . rw [hn]
    rfl
  . exact absurd hhead (head_toDigits hn)

theorem valueFrom_toDigits (n : Nat) : Decimal.valueFrom 0 (Nat.toDigits 10 n) = n := by
  have hvalue := Nat.ofDigitChars_ten_toDigits (n := n)
  rw [Nat.ofDigitChars_eq_foldl] at hvalue
  exact hvalue

theorem le_valueFrom (start : Nat) (digits : List Char)
    : start ≤ Decimal.valueFrom start digits := by
  have hvalue : Nat.ofDigitChars 10 digits start
      = 10 ^ digits.length * start + Nat.ofDigitChars 10 digits 0 :=
    Nat.ofDigitChars_eq_ofDigitChars_zero
  rw [Nat.ofDigitChars_eq_foldl] at hvalue
  have hpos : 0 < 10 ^ digits.length := Nat.pow_pos (by decide)
  calc start ≤ 10 ^ digits.length * start := Nat.le_mul_of_pos_left start hpos
    _ ≤ 10 ^ digits.length * start + Nat.ofDigitChars 10 digits 0 := Nat.le_add_right _ _
    _ = Decimal.valueFrom start digits := hvalue.symm

end Digits

namespace Number

section Gather

theorem gather_of_lt {word : Nat} {digits : List Char}
    (h : Decimal.valueFrom word digits < wordLimit)
    : gather word digits = (Decimal.valueFrom word digits, []) := by
  induction digits generalizing word with
  | nil => rfl
  | cons c digits ih =>
    have hle := le_valueFrom (10 * word + (c.toNat - '0'.toNat)) digits
    have hnext : 10 * word + (c.toNat - '0'.toNat) < wordLimit := Nat.lt_of_le_of_lt hle h
    unfold gather
    dsimp only
    rw [if_pos hnext]
    exact ih h

theorem gather_lt {word : Nat} (digits : List Char) (hword : word < wordLimit)
    : (gather word digits).1 < wordLimit := by
  induction digits generalizing word with
  | nil => exact hword
  | cons c digits ih =>
    unfold gather
    dsimp only
    split
    . next hnext => exact ih hnext
    . exact hword

theorem length_gather (word : Nat) (digits : List Char)
    : (gather word digits).2.length ≤ digits.length := by
  induction digits generalizing word with
  | nil => exact Nat.le_refl _
  | cons c digits ih =>
    unfold gather
    dsimp only
    split
    . exact Nat.le_succ_of_le (ih _)
    . exact Nat.le_refl _

end Gather

end Number

structure Numeral where
  whole : List Char
  fraction : Option (List Char) := none
  exponent : Option Int := none

namespace Numeral

def fractionText (n : Numeral) : List Char :=
  n.fraction.elim [] ('.' :: ·)

def exponentText (n : Numeral) : List Char :=
  n.exponent.elim [] fun e => 'e' :: (if e < 0 then '-' else '+') :: Nat.toDigits 10 e.natAbs

def text (n : Numeral) : List Char :=
  n.whole ++ (n.fractionText ++ n.exponentText)

/--
Whether the parts of a number are digits without needless zeros in front.
-/
structure Sound (n : Numeral) : Prop where
  whole : ∀ c ∈ n.whole, c.isDigit = true
  filled : n.whole ≠ []
  leading : n.whole.head? = some '0' → n.whole.length = 1
  fraction : ∀ digits ∈ n.fraction, digits ≠ [] ∧ ∀ c ∈ digits, c.isDigit = true
  real : n.fraction.isSome = true ∨ n.exponent.isSome = true

end Numeral

namespace Number

open Numeral

section Read

variable {n : Numeral} {rest : List Char}

theorem Closes.digits (hrest : Closes rest) : ∀ c ∈ rest.head?, c.isDigit = false := by
  intro c hc
  exact (hrest c hc).1

theorem not_leading {first : Char} {more : List Char}
    (hleading : first = '0' → (first :: more).length = 1)
    : (first = '0' && !more.isEmpty) = false := by
  cases more with
  | nil => simp
  | cons c more =>
    have hne : first ≠ '0' := by
      intro heq
      simpa using hleading heq
    simp [hne]

theorem read_toDigits {n : Nat} (hn : n < wordLimit) (negative : Bool) (hrest : Closes rest)
    : read negative (Nat.toDigits 10 n ++ rest) = .ok (whole negative n, rest) := by
  have hgather : gather 0 (Nat.toDigits 10 n) = (n, []) := by
    rw [gather_of_lt, valueFrom_toDigits]
    rwa [valueFrom_toDigits]
  have hleading := length_of_head_toDigits (n := n)
  unfold read
  dsimp only
  rw [takeWhile_digits (isDigit_toDigits n) (Closes.digits hrest),
    dropWhile_digits (isDigit_toDigits n) (Closes.digits hrest)]
  cases hdigits : Nat.toDigits 10 n with
  | nil => exact absurd hdigits Nat.toDigits_ne_nil
  | cons first more =>
    rw [hdigits] at hgather hleading
    simp only [not_leading (fun heq => hleading (congrArg some heq)), hgather]
    cases rest with
    | nil => rfl
    | cons c rest =>
      obtain ⟨_, _, hlower, hupper⟩ := hrest c rfl
      simp [hlower, hupper]

theorem readExponent_digits (negative minus : Bool) (word k : Nat) (exponent : Int)
    (hrest : Closes rest)
    : readExponent negative word exponent
        ('e' :: (if minus then '-' else '+') :: (Nat.toDigits 10 k ++ rest))
        =
      finish negative word (if minus then exponent - k else exponent + k) rest := by
  have htake := takeWhile_digits (isDigit_toDigits k) (Closes.digits hrest)
  have hdrop := dropWhile_digits (isDigit_toDigits k) (Closes.digits hrest)
  have hvalue := valueFrom_toDigits k
  cases hdigits : Nat.toDigits 10 k with
  | nil => exact absurd hdigits Nat.toDigits_ne_nil
  | cons first more =>
    rw [hdigits] at htake hdrop hvalue
    rw [List.cons_append] at htake hdrop
    cases minus with
    | true => simp [readExponent, htake, hdrop, hvalue]
    | false => simp [readExponent, htake, hdrop, hvalue]

theorem readExponent_text (negative : Bool) (word : Nat) (exponent : Int) (hrest : Closes rest)
    : readExponent negative word exponent (n.exponentText ++ rest)
        =
      finish negative word (exponent + n.exponent.getD 0) rest := by
  unfold exponentText
  cases n.exponent with
  | none =>
    cases rest with
    | nil => simp [readExponent]
    | cons c rest =>
      obtain ⟨_, _, hlower, hupper⟩ := hrest c rfl
      simp [readExponent, hlower, hupper]
  | some e =>
    by_cases hnegative : e < 0
    . have hshift : exponent - e.natAbs = exponent + e := by omega
      have hread := readExponent_digits negative true word e.natAbs exponent hrest
      rw [if_pos rfl, hshift] at hread
      simpa [hnegative] using hread
    . have hshift : exponent + e.natAbs = exponent + e := by omega
      have hread := readExponent_digits negative false word e.natAbs exponent hrest
      rw [if_neg Bool.false_ne_true, hshift] at hread
      simpa [hnegative] using hread

theorem exponentText_open (hrest : Closes rest)
    : ∀ c ∈ (n.exponentText ++ rest).head?, c.isDigit = false := by
  unfold exponentText
  cases n.exponent with
  | none => exact Closes.digits hrest
  | some e =>
    intro c hc
    simp only [Option.elim, List.cons_append, List.head?_cons, Option.mem_def,
      Option.some.injEq] at hc
    rw [← hc]
    decide

theorem readFraction_text {digits : List Char}
    (hdigits : digits ≠ [] ∧ ∀ c ∈ digits, c.isDigit = true) (negative : Bool) (word : Nat)
    (exponent : Int) (hrest : Closes rest)
    : readFraction negative word exponent (digits ++ (n.exponentText ++ rest))
        =
      finish negative (gather word digits).1
        (exponent - (digits.length - (gather word digits).2.length) + n.exponent.getD 0) rest := by
  unfold readFraction
  simp only [takeWhile_digits hdigits.2 (exponentText_open hrest),
    dropWhile_digits hdigits.2 (exponentText_open hrest), List.isEmpty_eq_false_iff.mpr hdigits.1]
  exact readExponent_text _ _ _ hrest

theorem read_numeral (hn : n.Sound)
    : ∃ word exponent, word < wordLimit ∧ exponent ≤ n.whole.length + n.exponent.getD 0 ∧
        ∀ negative rest, Closes rest →
          read negative (n.text ++ rest) = finish negative word exponent rest := by
  have hword : (gather 0 n.whole).1 < wordLimit := gather_lt n.whole (by decide)
  have hleft := length_gather 0 n.whole
  obtain ⟨first, more, hwhole⟩ := List.exists_cons_of_ne_nil hn.filled
  have hleading : (first = '0' && !more.isEmpty) = false := by
    apply not_leading
    intro heq
    have hlength := hn.leading
    rw [hwhole] at hlength
    exact hlength (congrArg some heq)
  cases hfraction : n.fraction with
  | none =>
    refine ⟨_, (gather 0 n.whole).2.length + n.exponent.getD 0, hword, by omega, ?_⟩
    intro negative rest hrest
    have htext : n.text ++ rest = n.whole ++ (n.exponentText ++ rest) := by
      simp [Numeral.text, fractionText, hfraction]
    obtain ⟨e, he⟩ := Option.isSome_iff_exists.mp (hn.real.resolve_left (by simp [hfraction]))
    have hmark : ∃ tail, n.exponentText ++ rest = 'e' :: tail := by
      simp [exponentText, he]
    obtain ⟨tail, hmark⟩ := hmark
    rw [htext, ← readExponent_text negative _ _ hrest]
    unfold read
    dsimp only
    rw [takeWhile_digits hn.whole (exponentText_open hrest),
      dropWhile_digits hn.whole (exponentText_open hrest), hwhole, hmark]
    simp only [hleading]
    rfl
  | some digits =>
    have hdigits := hn.fraction digits hfraction
    have hgathered := length_gather (gather 0 n.whole).1 digits
    let left : Int := digits.length - (gather (gather 0 n.whole).1 digits).2.length
    refine ⟨(gather (gather 0 n.whole).1 digits).1,
      (gather 0 n.whole).2.length - left + n.exponent.getD 0, gather_lt digits hword, by omega, ?_⟩
    intro negative rest hrest
    have htext : n.text ++ rest = n.whole ++ '.' :: (digits ++ (n.exponentText ++ rest)) := by
      simp [Numeral.text, fractionText, hfraction]
    have hopen : ∀ c ∈ ('.' :: (digits ++ (n.exponentText ++ rest))).head?, c.isDigit = false := by
      simp
    rw [htext, ← readFraction_text hdigits negative _ _ hrest]
    unfold read
    dsimp only
    rw [takeWhile_digits hn.whole hopen, dropWhile_digits hn.whole hopen, hwhole]
    simp only [hleading]
    rfl

end Read

section Scale

open Binary

variable {x y : Dyadic}

theorem powerOfTen_large (e : Nat) (he : e ≤ 308)
    : (powerOfTen e).mantissa ≠ 0 ∧ 0 ≤ (powerOfTen e).height := by
  revert he e
  decide +kernel

theorem height_powerOfTen {e : Nat} (he : e ≤ 200) : (powerOfTen e).height ≤ 4 * e + 2 := by
  have hreach : reach (10 ^ e) 1 ≤ 4 * e := by
    have hten := log2_ten_pow_le e
    have hone : Nat.log2 1 = 0 := by decide
    unfold reach
    omega
  obtain ⟨d, hd, hheight⟩ := round_double Nat.one_ne_zero (Int.le_trans hreach (by omega))
  unfold powerOfTen
  rw [Nat.pow_eq, hd]
  change d.height ≤ 4 * e + 2
  omega

theorem product_eq_some (hheight : x.height + y.height ≤ 1000) : ∃ d, product x y = some d := by
  let xy : Dyadic := ⟨x.mantissa * y.mantissa, x.place + y.place⟩
  have hreach : reach xy.ratio.1 xy.ratio.2 ≤ 1020 := by
    have hlog := log2_mul_le x.mantissa y.mantissa
    have hle : reach xy.ratio.1 xy.ratio.2
        ≤ (x.mantissa * y.mantissa).log2 + (x.place + y.place) := Dyadic.reach_ratio_le xy
    unfold Dyadic.height at hheight
    omega
  obtain ⟨d, hd, _⟩ := round_double xy.ratio_den hreach
  exact ⟨d, hd⟩

theorem quotient_eq_some (hy : y.mantissa ≠ 0) (hheight : x.height - y.height ≤ 1000)
    : ∃ d, quotient x y = some d ∧ d.height ≤ max (x.height - y.height + 3) (-1020) := by
  have hnum : y.ratio.1 ≠ 0 := by
    unfold Dyadic.ratio
    split
    . rw [Nat.shiftLeft_eq]
      exact Nat.mul_ne_zero hy (Nat.ne_of_gt (Nat.two_pow_pos _))
    . exact hy
  have hreach : reach (x.ratio.1 * y.ratio.2) (x.ratio.2 * y.ratio.1)
      ≤ x.height - y.height + 1 := by
    have hx := x.reach_ratio_le
    have hy := Dyadic.reach_ratio hy
    have hover := log2_mul_le x.ratio.1 y.ratio.2
    have hunder := le_log2_mul x.ratio_den hnum
    unfold reach at *
    omega
  obtain ⟨d, hd, hle⟩ :=
    round_double (Nat.mul_ne_zero x.ratio_den hnum) (Int.le_trans hreach (by omega))
  exact ⟨d, hd, by omega⟩

theorem scale_near {d : Dyadic} {exponent : Int} (hd : d.height ≤ 100) (hexponent : exponent ≤ 200)
    (hnear : exponent.natAbs ≤ 308)
    : ∃ x, (if 0 ≤ exponent then product d (powerOfTen exponent.natAbs)
        else quotient d (powerOfTen exponent.natAbs)) = some x := by
  split
  . have hheight := height_powerOfTen (by omega : exponent.natAbs ≤ 200)
    exact product_eq_some (by omega)
  . obtain ⟨hsome, hlarge⟩ := powerOfTen_large exponent.natAbs hnear
    obtain ⟨x, hx, _⟩ := quotient_eq_some (x := d) hsome (by omega)
    exact ⟨x, hx⟩

theorem scale_go_eq_some (fuel : Nat) {d : Dyadic} {exponent : Int} (hd : d.height ≤ 100)
    (hexponent : exponent ≤ 200) : ∃ x, scale.go fuel d exponent = some x := by
  induction fuel generalizing d exponent with
  | zero =>
    unfold scale.go
    split
    . next hnear => exact scale_near hd hexponent hnear
    . split
      . exact ⟨d, rfl⟩
      . rw [if_neg (by omega)]
        exact ⟨_, rfl⟩
  | succ fuel ih =>
    unfold scale.go
    split
    . next hnear => exact scale_near hd hexponent hnear
    . split
      . exact ⟨d, rfl⟩
      . rw [if_neg (by omega)]
        have hten : (powerOfTen 308).mantissa ≠ 0 ∧ (powerOfTen 308).height = 1023 := by
          decide +kernel
        obtain ⟨x, hx, hheight⟩ := quotient_eq_some (x := d) hten.1 (by omega)
        rw [hx]
        exact ih (by omega) (by omega)

theorem scale_eq_some {word : Nat} (hword : word < wordLimit) {exponent : Int}
    (hexponent : exponent ≤ 200) : ∃ d, scale word exponent = some d := by
  have hreach : reach word 1 ≤ 63 := by
    have hlog : word.log2 ≤ 63 := log2_le_of_lt hword
    unfold reach
    omega
  obtain ⟨d, hd, hheight⟩ := round_double Nat.one_ne_zero (Int.le_trans hreach (by omega))
  unfold scale
  rw [hd]
  exact scale_go_eq_some _ (by omega) hexponent

end Scale

end Number

theorem toList_toString (e : Int)
    : (toString e).toList = (if e < 0 then ['-'] else []) ++ Nat.toDigits 10 e.natAbs := by
  rw [Int.toString_eq_repr, Int.repr_eq_if]
  by_cases hnegative : e < 0
  . have habs : (-e).toNat = e.natAbs := by omega
    rw [if_neg (by omega), if_pos hnegative, habs, Nat.repr_eq_ofList_toDigits]
    simp
  . have habs : e.toNat = e.natAbs := by omega
    rw [if_pos (by omega), if_neg hnegative, habs, Nat.repr_eq_ofList_toDigits]
    simp

section Layout

theorem isDigit_zeros (k : Nat) : ∀ c ∈ List.replicate k '0', c.isDigit = true := by
  intro c hc
  rw [List.eq_of_mem_replicate hc]
  decide

theorem sound_pointed {whole fraction : List Char} (hwhole : ∀ c ∈ whole, c.isDigit = true)
    (hfilled : whole ≠ []) (hleading : whole.head? = some '0' → whole.length = 1)
    (hfraction : fraction ≠ [] ∧ ∀ c ∈ fraction, c.isDigit = true)
    : (⟨whole, some fraction, none⟩ : Numeral).Sound where
  whole := hwhole
  filled := hfilled
  leading := hleading
  fraction := by
    intro digits hdigits
    rw [Option.mem_some.mp hdigits] at hfraction
    exact hfraction
  real := Or.inl rfl

theorem text_pointed (whole fraction : List Char)
    : (⟨whole, some fraction, none⟩ : Numeral).text = whole ++ '.' :: fraction := by
  simp [Numeral.text, Numeral.fractionText, Numeral.exponentText]

theorem exists_positional (d : Decimal)
    : ∃ n : Numeral, n.Sound ∧ n.text = d.positional ['.', '0'] ∧
        n.whole.length + n.exponent.getD 0 ≤ max (d.figures.length + d.exponent) 1 := by
  have hfigures : d.figures ≠ [] := Nat.toDigits_ne_nil
  have hdigits : ∀ c ∈ d.figures, c.isDigit = true := isDigit_toDigits d.digits
  have hlength : d.figures.head? = some '0' → d.figures.length = 1 := length_of_head_toDigits
  have hpositive : 0 < d.figures.length := List.length_pos_iff.mpr hfigures
  have hzero : ∀ c ∈ ['0'], c.isDigit = true := isDigit_zeros 1
  unfold Decimal.positional
  dsimp only
  split
  . next hexponent =>
    split
    . refine ⟨⟨['0'], some ['0'], none⟩, ?_, rfl, ?_⟩
      . exact sound_pointed hzero (by simp) (fun _ => rfl) ⟨by simp, hzero⟩
      . exact Int.le_max_right _ _
    . next hne =>
      refine ⟨⟨d.figures ++ List.replicate d.exponent.toNat '0', some ['0'], none⟩, ?_, ?_, ?_⟩
      . apply sound_pointed _ (by simp [hfigures]) _ ⟨by simp, hzero⟩
        . intro c hc
          rcases List.mem_append.mp hc with hc | hc
          . exact hdigits c hc
          . exact isDigit_zeros _ c hc
        . intro hhead
          have hnonzero : d.figures.head? ≠ some '0' := head_toDigits hne
          rw [List.head?_append] at hhead
          obtain ⟨first, more, hcons⟩ := List.exists_cons_of_ne_nil hfigures
          rw [hcons] at hhead hnonzero
          exact absurd hhead hnonzero
      . rw [text_pointed, List.append_assoc]
      . simp
        omega
  . next hexponent =>
    split
    . next hplaces =>
      refine ⟨⟨d.figures.take (d.figures.length - (-d.exponent).toNat),
        some (d.figures.drop (d.figures.length - (-d.exponent).toNat)), none⟩, ?_, ?_, ?_⟩
      . apply sound_pointed
        . intro c hc
          exact hdigits c (List.mem_of_mem_take hc)
        . simp [hfigures]
          omega
        . intro hhead
          rw [List.head?_take, if_neg (by omega)] at hhead
          simp only [List.length_take]
          have := hlength hhead
          omega
        . refine ⟨?_, ?_⟩
          . simp
            omega
          . intro c hc
            exact hdigits c (List.mem_of_mem_drop hc)
      . exact text_pointed _ _
      . simp
        omega
    . refine ⟨⟨['0'],
        some (List.replicate ((-d.exponent).toNat - d.figures.length) '0' ++ d.figures), none⟩,
        ?_, ?_, ?_⟩
      . apply sound_pointed hzero (by simp) (fun _ => rfl)
        refine ⟨by simp [hfigures], ?_⟩
        intro c hc
        rcases List.mem_append.mp hc with hc | hc
        . exact isDigit_zeros _ c hc
        . exact hdigits c hc
      . exact text_pointed _ _
      . exact Int.le_max_right _ _

theorem exists_scientific (d : Decimal)
    : ∃ n : Numeral, n.Sound ∧ n.text = d.scientific ['+'] ∧
        n.whole.length + n.exponent.getD 0 ≤ d.figures.length + d.exponent := by
  have hdigits : ∀ c ∈ d.figures, c.isDigit = true := isDigit_toDigits d.digits
  have hfigures : d.figures ≠ [] := Nat.toDigits_ne_nil
  have hexponent : 'e' :: ((if d.magnitude < 0 then [] else ['+']) ++ (toString d.magnitude).toList)
      = 'e' :: (if d.magnitude < 0 then '-' else '+') :: Nat.toDigits 10 d.magnitude.natAbs := by
    rw [toList_toString]
    split
    . rfl
    . rfl
  unfold Decimal.scientific
  dsimp only
  rw [hexponent]
  cases hcons : d.figures with
  | nil => exact absurd hcons hfigures
  | cons first more =>
    rw [hcons] at hdigits
    cases more with
    | nil =>
      refine ⟨⟨[first], none, some d.magnitude⟩, ?_, rfl, ?_⟩
      . exact ⟨hdigits, by simp, fun _ => rfl, by simp, Or.inr rfl⟩
      . simp [Decimal.magnitude, hcons]
    | cons second more =>
      refine ⟨⟨[first], some (second :: more), some d.magnitude⟩, ?_, rfl, ?_⟩
      . refine ⟨?_, by simp, fun _ => rfl, ?_, Or.inl rfl⟩
        . intro c hc
          exact hdigits c (by simp_all)
        . intro digits hsome
          rw [← Option.mem_some.mp hsome]
          refine ⟨by simp, ?_⟩
          intro c hc
          exact hdigits c (List.mem_cons_of_mem _ hc)
      . simp [Decimal.magnitude, hcons]
        omega

theorem exists_realText {d : Dyadic} (hd : d.height ≤ 170)
    : ∃ n : Numeral, n.Sound ∧ n.whole.length + n.exponent.getD 0 ≤ 54 ∧
        ∀ negative, realText negative d = (if negative then ['-'] else []) ++ n.text := by
  have hlength : (Decimal.shortest .double .even d).figures.length
      + (Decimal.shortest .double .even d).exponent ≤ 53 + 1 :=
    (Decimal.within_shortest hd (by decide) (by decide)).length_figures
  obtain ⟨n, hn, hpositional, hle⟩ := exists_positional (Decimal.shortest .double .even d)
  obtain ⟨m, hm, hscientific, hle'⟩ := exists_scientific (Decimal.shortest .double .even d)
  unfold realText
  dsimp only
  rw [← hpositional, ← hscientific]
  split
  . refine ⟨n, hn, by omega, ?_⟩
    intro negative
    cases negative with
    | true => rfl
    | false => rfl
  . refine ⟨m, hm, by omega, ?_⟩
    intro negative
    cases negative with
    | true => rfl
    | false => rfl

-- The text of a number that is not far too large for a double need not read back as the same
-- number, but it does not overflow.
theorem read_realText {d : Dyadic} (hd : d.height ≤ 170)
    : ∃ first more x, first.isDigit = true ∧
        (∀ negative, realText negative d = (if negative then ['-'] else []) ++ first :: more) ∧
        ∀ negative rest, Closes rest →
          Number.read negative (first :: more ++ rest) = .ok (.real negative x, rest) := by
  obtain ⟨n, hn, hle, htext⟩ := exists_realText hd
  obtain ⟨word, exponent, hword, hexponent, hread⟩ := Number.read_numeral hn
  obtain ⟨x, hx⟩ := Number.scale_eq_some hword (Int.le_trans hexponent (by omega : _ ≤ (200 : Int)))
  obtain ⟨first, more, hwhole⟩ := List.exists_cons_of_ne_nil hn.filled
  obtain ⟨tail, hcons⟩ : ∃ tail, n.text = first :: tail := by
    unfold Numeral.text
    rw [hwhole]
    exact ⟨_, rfl⟩
  refine ⟨first, tail, x, hn.whole first (by simp [hwhole]), ?_, ?_⟩
  . intro negative
    rw [htext, hcons]
  . intro negative rest hrest
    rw [← hcons, hread negative rest hrest]
    unfold Number.finish
    rw [hx]

end Layout

end Parley.Json
