import Parley.Proofs.Binary

namespace Parley

namespace Decimal

open Binary

structure Within (s : Nat) (d : Decimal) : Prop where
  exponent : d.exponent ≤ s
  digits : d.digits ≤ 10 ^ (s - d.exponent).toNat

section Shortest

variable {b : Binary} {tie : Tie} {d : Dyadic} {k s : Nat}

theorem floor_lt (hheight : d.height ≤ k) (hs : 2 ^ (k + 1) ≤ 10 ^ s) {exponent : Int}
    (hexponent : exponent ≤ s)
    : 4 * d.mantissa * (shortest.unit d exponent).1 / (shortest.unit d exponent).2
        < 10 ^ (s - exponent).toNat := by
  unfold Dyadic.height at hheight
  unfold shortest.unit
  simp only [Nat.pow_eq]
  have hbits : 4 * d.mantissa * 2 ^ (d.place - 2).toNat < 2 ^ (-(d.place - 2)).toNat * 10 ^ s := by
    calc 4 * d.mantissa * 2 ^ (d.place - 2).toNat
        < 2 ^ (2 + (d.mantissa.log2 + 1)) * 2 ^ (d.place - 2).toNat := by
          apply Nat.mul_lt_mul_of_pos_right _ (Nat.two_pow_pos _)
          rw [Nat.pow_add]
          exact Nat.mul_lt_mul_of_pos_left Nat.lt_log2_self (by decide)
      _ ≤ 2 ^ ((-(d.place - 2)).toNat + (k + 1)) := by
          rw [← Nat.pow_add]
          exact Nat.pow_le_pow_right (by decide) (by omega)
      _ ≤ 2 ^ (-(d.place - 2)).toNat * 10 ^ s := by
          rw [Nat.pow_add]
          exact Nat.mul_le_mul_left _ hs
  have hplaces : 10 ^ s * 10 ^ (-exponent).toNat
      = 10 ^ exponent.toNat * 10 ^ (s - exponent).toNat := by
    rw [← Nat.pow_add, ← Nat.pow_add]
    congr 1
    omega
  have hpos : 0 < 2 ^ (-(d.place - 2)).toNat * 10 ^ exponent.toNat :=
    Nat.mul_pos (Nat.two_pow_pos _) (Nat.pow_pos (by decide))
  rw [Nat.div_lt_iff_lt_mul hpos]
  calc 4 * d.mantissa * (2 ^ (d.place - 2).toNat * 10 ^ (-exponent).toNat)
      = 4 * d.mantissa * 2 ^ (d.place - 2).toNat * 10 ^ (-exponent).toNat := by
        rw [Nat.mul_assoc (4 * d.mantissa)]
    _ < 2 ^ (-(d.place - 2)).toNat * 10 ^ s * 10 ^ (-exponent).toNat :=
        Nat.mul_lt_mul_of_pos_right hbits (Nat.pow_pos (by decide))
    _ = 10 ^ (s - exponent).toNat * (2 ^ (-(d.place - 2)).toNat * 10 ^ exponent.toNat) := by
        rw [Nat.mul_assoc, hplaces, ← Nat.mul_assoc, Nat.mul_comm]

theorem within_go (hheight : d.height ≤ k) (hs : 2 ^ (k + 1) ≤ 10 ^ s) (fuel : Nat) {exponent : Int}
    (hexponent : exponent ≤ s) : Within s (shortest.go b tie d fuel exponent) := by
  induction fuel generalizing exponent with
  | zero =>
    have hfloor := floor_lt hheight hs hexponent
    exact ⟨hexponent, Nat.le_of_lt hfloor⟩
  | succ fuel ih =>
    have hfloor := floor_lt hheight hs hexponent
    unfold shortest.go
    dsimp only
    split
    . exact ih (by omega)
    . exact ⟨hexponent, Nat.le_of_lt hfloor⟩
    . exact ⟨hexponent, hfloor⟩
    . split
      . exact ⟨hexponent, Nat.le_of_lt hfloor⟩
      . split
        . exact ⟨hexponent, hfloor⟩
        . cases tie with
          | up => exact ⟨hexponent, hfloor⟩
          | even =>
            refine ⟨hexponent, ?_⟩
            dsimp only
            omega

theorem within_shortest (hheight : d.height ≤ k) (hs : 2 ^ (k + 1) ≤ 10 ^ s)
    (hstart : k * 30103 / 100000 + 2 ≤ s) : Within s (shortest b tie d) := by
  unfold shortest
  split
  . exact ⟨by simp, by simp⟩
  . apply within_go hheight hs
    unfold Dyadic.height at hheight
    unfold shortest.start
    simp only [Int.ofNat_eq_natCast]
    omega

end Shortest

section Round

variable {b : Binary} {s : Nat} {d : Decimal}

theorem Within.length_figures (h : Within s d) : d.figures.length + d.exponent ≤ s + 1 := by
  have hlength : d.figures.length ≤ (s - d.exponent).toNat + 1 := by
    unfold figures
    rw [Nat.length_toDigits_le_iff (by decide) (by omega)]
    calc d.digits ≤ 10 ^ (s - d.exponent).toNat := h.digits
      _ < 10 ^ ((s - d.exponent).toNat + 1) := Nat.pow_lt_pow_right (by decide) (by omega)
  have hexponent := h.exponent
  omega

theorem Within.reach_le (h : Within s d) (hexponent : d.exponent < 0)
    : reach d.digits (10 ^ (-d.exponent).toNat) ≤ 4 * s + 1 := by
  have hdigits : d.digits ≤ 10 ^ s * 10 ^ (-d.exponent).toNat := by
    apply Nat.le_trans h.digits
    rw [← Nat.pow_add]
    exact Nat.pow_le_pow_right (by decide) (by omega)
  have hlog : d.digits.log2 ≤ (10 ^ s * 10 ^ (-d.exponent).toNat).log2 := by
    apply log2_le_of_lt
    exact Nat.lt_of_le_of_lt hdigits Nat.lt_log2_self
  have hmul := log2_mul_le (10 ^ s) (10 ^ (-d.exponent).toNat)
  have hten := log2_ten_pow_le s
  unfold reach
  omega

theorem Within.round (hb : 0 < b.precision) (h : Within s d) (hs : s ≤ 400)
    (hlimit : b.ceiling (4 * s + 1) < b.limit)
    : ∃ x, d.round b = some x ∧ x.height ≤ b.ceiling (4 * s + 1) := by
  have hmagnitude : d.magnitude ≤ 400 := by
    have hlength := h.length_figures
    unfold magnitude
    omega
  have hzero : (⟨0, b.bottom⟩ : Dyadic).height ≤ b.ceiling (4 * s + 1) := by
    unfold Dyadic.height ceiling
    simp only [Nat.log2_zero]
    omega
  have hround : ∀ num den, den ≠ 0 → reach num den ≤ 4 * s + 1 →
      ∃ x, b.round num den = some x ∧ x.height ≤ b.ceiling (4 * s + 1) := by
    intro num den hden hreach
    have hceiling : b.ceiling (reach num den) ≤ b.ceiling (4 * s + 1) := by
      unfold ceiling
      omega
    obtain ⟨x, hx, hheight⟩ := round_eq_some hb hden (Int.lt_of_le_of_lt hceiling hlimit)
    exact ⟨x, hx, Int.le_trans hheight hceiling⟩
  unfold Decimal.round
  split
  . exact ⟨_, rfl, hzero⟩
  . split
    . exact ⟨_, rfl, hzero⟩
    . rw [if_neg (by omega)]
      split
      . next hexponent =>
        apply hround _ _ Nat.one_ne_zero
        have hnum : d.digits * 10 ^ d.exponent.toNat ≤ 10 ^ s := by
          calc d.digits * 10 ^ d.exponent.toNat
              ≤ 10 ^ (s - d.exponent).toNat * 10 ^ d.exponent.toNat :=
                Nat.mul_le_mul_right _ h.digits
            _ = 10 ^ s := by
                have hle := h.exponent
                rw [← Nat.pow_add]
                congr 1
                omega
        have hlog : (d.digits * 10 ^ d.exponent.toNat).log2 ≤ (10 ^ s).log2 :=
          log2_le_of_lt (Nat.lt_of_le_of_lt hnum Nat.lt_log2_self)
        have hten := log2_ten_pow_le s
        unfold reach
        simp only [Nat.pow_eq]
        omega
      . next hexponent =>
        apply hround
        . exact Nat.ne_of_gt (Nat.pow_pos (by decide))
        . exact h.reach_le (by omega)

end Round

end Decimal
end Parley
