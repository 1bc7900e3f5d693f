import Mathlib.Algebra.Group.Nat.Defs
import Parley.Decimal

namespace Parley

def Dyadic.height (d : Dyadic) : Int :=
  d.mantissa.log2 + d.place

namespace Binary

def reach (num den : Nat) : Int :=
  num.log2 - den.log2

section Log2

theorem log2_le_of_lt {n k : Nat} (h : n < 2 ^ (k + 1)) : n.log2 ≤ k := by
  by_cases hn : n = 0
  . rw [hn]
    exact Nat.zero_le k
  . have hlt := (Nat.log2_lt hn).mpr h
    omega

theorem le_log2_of_le {n k : Nat} (h : 2 ^ k ≤ n) : k ≤ n.log2 := by
  have hpos : 0 < 2 ^ k := Nat.two_pow_pos k
  exact (Nat.le_log2 (by omega)).mpr h

theorem log2_mul_le (m n : Nat) : (m * n).log2 ≤ m.log2 + n.log2 + 1 := by
  apply log2_le_of_lt
  calc m * n < 2 ^ (m.log2 + 1) * 2 ^ (n.log2 + 1) := by
        apply Nat.mul_lt_mul'' Nat.lt_log2_self Nat.lt_log2_self
    _ = 2 ^ (m.log2 + n.log2 + 1 + 1) := by
        rw [← Nat.pow_add]
        congr 1
        omega

theorem le_log2_mul {m n : Nat} (hm : m ≠ 0) (hn : n ≠ 0) : m.log2 + n.log2 ≤ (m * n).log2 := by
  apply le_log2_of_le
  rw [Nat.pow_add]
  exact Nat.mul_le_mul (Nat.log2_self_le hm) (Nat.log2_self_le hn)

theorem log2_shiftLeft {n : Nat} (hn : n ≠ 0) (k : Nat) : (n <<< k).log2 = n.log2 + k := by
  rw [Nat.shiftLeft_eq]
  apply Nat.le_antisymm
  . apply log2_le_of_lt
    have hlt := Nat.mul_lt_mul_of_pos_right (Nat.lt_log2_self (n := n)) (Nat.two_pow_pos k)
    calc n * 2 ^ k < 2 ^ (n.log2 + 1) * 2 ^ k := hlt
      _ = 2 ^ (n.log2 + k + 1) := by
        rw [← Nat.pow_add]
        congr 1
        omega
  . have hle := le_log2_mul hn (Nat.ne_of_gt (Nat.two_pow_pos k))
    rwa [Nat.log2_two_pow] at hle

theorem log2_ten_pow_le (e : Nat) : (10 ^ e).log2 ≤ 4 * e := by
  apply log2_le_of_lt
  calc 10 ^ e ≤ 16 ^ e := Nat.pow_le_pow_left (by decide) e
    _ = 2 ^ (4 * e) := by rw [Nat.pow_mul]
    _ < 2 ^ (4 * e + 1) := Nat.pow_lt_pow_right (by decide) (by omega)

end Log2

section Round

variable {b : Binary} {num den : Nat}

theorem highest_le (num den : Nat) : highest num den ≤ reach num den := by
  unfold highest reach
  simp only [Int.ofNat_eq_natCast]
  split
  all_goals omega

theorem le_highest (num den : Nat) : reach num den - 1 ≤ highest num den := by
  unfold highest reach
  simp only [Int.ofNat_eq_natCast]
  split
  all_goals omega

theorem nearest_le (num den : Nat) : nearest num den ≤ num / den + 1 := by
  unfold nearest
  dsimp only
  split
  . omega
  . split
    . omega
    . omega

theorem log2_nearest_le {t : Nat} (hden : den ≠ 0) (hreach : reach num den < t)
    : (nearest num den).log2 ≤ t := by
  unfold reach at hreach
  have hquotient : num / den < 2 ^ t := by
    rw [Nat.div_lt_iff_lt_mul (Nat.pos_of_ne_zero hden)]
    calc num < 2 ^ (num.log2 + 1) := Nat.lt_log2_self
      _ ≤ 2 ^ (t + den.log2) := Nat.pow_le_pow_right (by decide) (by omega)
      _ = 2 ^ t * 2 ^ den.log2 := Nat.pow_add ..
      _ ≤ 2 ^ t * den := Nat.mul_le_mul_left _ (Nat.log2_self_le hden)
  apply log2_le_of_lt
  have hnearest := nearest_le num den
  have htwo : 2 ^ (t + 1) = 2 * 2 ^ t := Nat.pow_succ'
  have hpos : 0 < 2 ^ t := Nat.two_pow_pos t
  omega

theorem height_carry (hb : 0 < b.precision) (d : Dyadic) : (b.carry d).height = d.height := by
  unfold carry
  split
  . next heq =>
    simp only [Dyadic.height, heq, Nat.pow_eq, Nat.log2_two_pow]
    omega
  . rfl

/--
A bound for the height of a rounded ratio: where the places below the ratio are used up, that of the
greatest value with the lowest place.
-/
def ceiling (b : Binary) (reach : Int) : Int :=
  max (reach + 2) (b.bottom + b.precision + 1)

theorem round_eq_some (hb : 0 < b.precision) (hden : den ≠ 0)
    (hlimit : b.ceiling (reach num den) < b.limit)
    : ∃ d, b.round num den = some d ∧ d.height ≤ b.ceiling (reach num den) := by
  unfold ceiling at *
  unfold round
  split
  . refine ⟨_, rfl, ?_⟩
    simp only [Dyadic.height, Nat.log2_zero]
    omega
  . next hnum =>
    dsimp only
    have hle := highest_le num den
    have hge := le_highest num den
    generalize hplace : max (highest num den - b.precision + 1) b.bottom = place
    generalize hmantissa : (if 0 ≤ place then nearest num (den <<< place.toNat)
      else nearest (num <<< (-place).toNat) den) = mantissa
    have hbits : mantissa.log2 ≤ b.precision + 1 := by
      rw [← hmantissa]
      split
      . apply log2_nearest_le
        . rw [Nat.shiftLeft_eq]
          exact Nat.mul_ne_zero hden (Nat.ne_of_gt (Nat.two_pow_pos _))
        . unfold reach at *
          rw [log2_shiftLeft hden]
          omega
      . apply log2_nearest_le hden
        unfold reach at *
        rw [log2_shiftLeft hnum]
        omega
    have hheight : mantissa.log2 + place
        ≤ max (reach num den + 2) (b.bottom + b.precision + 1) := by
      omega
    have hin : ¬Int.ofNat b.limit ≤ Int.ofNat mantissa.log2 + place := by
      simp only [Int.ofNat_eq_natCast]
      omega
    rw [if_neg hin]
    refine ⟨_, rfl, ?_⟩
    rw [height_carry hb]
    exact hheight

theorem ceiling_double (reach : Int) : double.ceiling reach = max (reach + 2) (-1020) := rfl

theorem round_double (hden : den ≠ 0) (hreach : reach num den ≤ 1020)
    : ∃ d, double.round num den = some d ∧ d.height ≤ max (reach num den + 2) (-1020) := by
  have hlimit : double.ceiling (reach num den) < double.limit := by
    change double.ceiling (reach num den) < 1024
    rw [ceiling_double]
    omega
  exact round_eq_some (by decide) hden hlimit

end Round

end Binary

namespace Dyadic

open Binary

variable {b : Binary}

theorem ratio_den (d : Dyadic) : d.ratio.2 ≠ 0 := by
  unfold ratio
  split
  . simp
  . simp [Nat.shiftLeft_eq]

theorem reach_ratio {d : Dyadic} (hd : d.mantissa ≠ 0) : reach d.ratio.1 d.ratio.2 = d.height := by
  have hone : Nat.log2 1 = 0 := by decide
  unfold ratio reach height
  split
  . simp only [log2_shiftLeft hd, hone]
    omega
  . simp only [log2_shiftLeft Nat.one_ne_zero, hone]
    omega

theorem reach_ratio_le (d : Dyadic) : reach d.ratio.1 d.ratio.2 ≤ d.height := by
  by_cases hd : d.mantissa = 0
  . have hone : Nat.log2 1 = 0 := by decide
    unfold ratio reach height
    split
    . simp only [hd, Nat.zero_shiftLeft, Nat.log2_zero, hone]
      omega
    . simp only [hd, Nat.log2_zero, log2_shiftLeft Nat.one_ne_zero, hone]
      omega
  . exact Int.le_of_eq (reach_ratio hd)

end Dyadic
end Parley
