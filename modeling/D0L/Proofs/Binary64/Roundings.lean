import D0L.Proofs.Binary64.Nearest
import Mathlib

namespace D0L

/-!
# How far several roundings lead

A number that is computed in several steps is rounded in each of them.  Each rounding changes it by
a factor of `1 + 2 ^ -53` at most, and so moves the rank that it ends up at by one at most.

* `Within n x y` — two numbers that are `n` roundings apart at most; products and quotients add
  these up.
* `Magnitude.within_nearest` — one rounding of a number, which counts for several where the number
  is so small that it loses bits.
* `twiceMidpoint_mul_lt` — `n` roundings do not lead from a midpoint to the `n`-th one after it.
* `RoundsTo rank x` — the number `x` lies between the midpoints around a rank.
* `RoundsTo.rank_nearest_le`, `RoundsTo.le_rank_nearest` — a number that is `n` roundings apart from
  such an `x` is rounded to a rank that is at most `n` ranks away.
-/

/-- What one rounding can change a number by. -/
def roundingFactor : ℚ := ((power 2 53 + 1 : Nat) : ℚ) / (power 2 53 : Nat)

theorem roundingFactor_eq : roundingFactor = 9007199254740993 / 9007199254740992 := by
  rw [roundingFactor, power_fiftyThree]
  norm_num

/-- A rounding can make a difference. -/
theorem one_lt_roundingFactor : 1 < roundingFactor := by
  rw [roundingFactor_eq]
  norm_num

theorem roundingFactor_pow_pos (n : Nat) : 0 < roundingFactor ^ n :=
  pow_pos (lt_trans one_pos one_lt_roundingFactor) n

/-! ### Numbers that are some roundings apart -/

/-- Two numbers that are `n` roundings apart at most. -/
structure Within (n : Nat) (x y : ℚ) : Prop where
  /-- The first one is not too great. -/
  le : x ≤ y * roundingFactor ^ n
  /-- The second one is not too great. -/
  ge : y ≤ x * roundingFactor ^ n

namespace Within

variable {m n : Nat} {x y z x' y' : ℚ}

/-- A number is no rounding apart from itself. -/
theorem refl (x : ℚ) : Within 0 x x := by
  constructor <;> rw [pow_zero, mul_one]

/-- Numbers that are no rounding apart are equal. -/
theorem eq_of_zero (h : Within 0 x y) : x = y := by
  have hle := h.le
  have hge := h.ge
  rw [pow_zero, mul_one] at hle hge
  exact le_antisymm hle hge

/-- Roundings add up from number to number. -/
theorem trans (h : Within m x y) (h' : Within n y z) : Within (m + n) x z := by
  have hm := (roundingFactor_pow_pos m).le
  have hn := (roundingFactor_pow_pos n).le
  constructor
  · calc x ≤ y * roundingFactor ^ m := h.le
      _ ≤ z * roundingFactor ^ n * roundingFactor ^ m := mul_le_mul_of_nonneg_right h'.le hm
      _ = z * roundingFactor ^ (m + n) := by ring
  · calc z ≤ y * roundingFactor ^ n := h'.ge
      _ ≤ x * roundingFactor ^ m * roundingFactor ^ n := mul_le_mul_of_nonneg_right h.ge hn
      _ = x * roundingFactor ^ (m + n) := by ring

/-- The roundings of two factors add up in their product. -/
theorem mul (h : Within m x x') (h' : Within n y y') (hx : 0 ≤ x) (hx' : 0 ≤ x') (hy : 0 ≤ y)
    (hy' : 0 ≤ y') : Within (m + n) (x * y) (x' * y') := by
  have hm := (roundingFactor_pow_pos m).le
  constructor
  · calc x * y ≤ x' * roundingFactor ^ m * (y' * roundingFactor ^ n) :=
          mul_le_mul h.le h'.le hy (mul_nonneg hx' hm)
      _ = x' * y' * roundingFactor ^ (m + n) := by ring
  · calc x' * y' ≤ x * roundingFactor ^ m * (y * roundingFactor ^ n) :=
          mul_le_mul h.ge h'.ge hy' (mul_nonneg hx hm)
      _ = x * y * roundingFactor ^ (m + n) := by ring

/-- Reciprocals are as many roundings apart as the numbers are. -/
theorem inv (h : Within n y y') (hy : 0 < y) (hy' : 0 < y') : Within n y⁻¹ y'⁻¹ := by
  constructor
  · rw [← div_eq_inv_mul, le_div_iff₀ hy', inv_mul_le_iff₀ hy]
    exact h.ge
  · rw [← div_eq_inv_mul, le_div_iff₀ hy, inv_mul_le_iff₀ hy']
    exact h.le

/-- The roundings of two numbers add up in their quotient. -/
theorem div (h : Within m x x') (h' : Within n y y') (hx : 0 ≤ x) (hx' : 0 ≤ x') (hy : 0 < y)
    (hy' : 0 < y') : Within (m + n) (x / y) (x' / y') := by
  rw [div_eq_mul_inv, div_eq_mul_inv]
  exact h.mul (h'.inv hy hy') hx hx' (inv_pos.2 hy).le (inv_pos.2 hy').le

/-- Integers that differ by `n` parts in `2 ^ 53` at most are `n` roundings apart at most. -/
theorem of_parts {a b : Nat} (hle : a * power 2 53 ≤ b * (power 2 53 + n))
    (hge : b * power 2 53 ≤ a * (power 2 53 + n)) : Within n (a : ℚ) (b : ℚ) := by
  have hpos : (0 : ℚ) < (power 2 53 : Nat) := Nat.cast_pos.2 (power_pos Nat.two_pos 53)
  -- several roundings change a number by more than the sum of their parts
  have hparts : ((power 2 53 + n : Nat) : ℚ) ≤ roundingFactor ^ n * (power 2 53 : Nat) := by
    have hsum : 1 + (n : ℚ) * (roundingFactor - 1) ≤ roundingFactor ^ n :=
      one_add_mul_sub_le_pow (by linarith [one_lt_roundingFactor]) n
    have hpart : (roundingFactor - 1) * (power 2 53 : Nat) = 1 := by
      rw [roundingFactor, sub_mul, div_mul_cancel₀ _ hpos.ne', Nat.cast_add]
      ring
    calc ((power 2 53 + n : Nat) : ℚ)
        = (power 2 53 : Nat) + n * ((roundingFactor - 1) * (power 2 53 : Nat)) := by
          rw [hpart, mul_one, Nat.cast_add]
      _ = (1 + (n : ℚ) * (roundingFactor - 1)) * (power 2 53 : Nat) := by ring
      _ ≤ roundingFactor ^ n * (power 2 53 : Nat) := mul_le_mul_of_nonneg_right hsum hpos.le
  have hcast {a b : Nat} (h : a * power 2 53 ≤ b * (power 2 53 + n)) :
      (a : ℚ) ≤ b * roundingFactor ^ n := by
    refine le_of_mul_le_mul_right (?_ : _ ≤ b * roundingFactor ^ n * (power 2 53 : Nat)) hpos
    calc (a : ℚ) * (power 2 53 : Nat) ≤ b * (power 2 53 + n : Nat) := by exact_mod_cast h
      _ ≤ b * (roundingFactor ^ n * (power 2 53 : Nat)) :=
          mul_le_mul_of_nonneg_left hparts (Nat.cast_nonneg b)
      _ = b * roundingFactor ^ n * (power 2 53 : Nat) := (mul_assoc _ _ _).symm
  exact ⟨hcast hle, hcast hge⟩

/-- A multiple of a distance that is half of the distance away at most, where the distance is small
    against both numbers. -/
theorem of_half_distance {n s distance scaled : Nat}
    (hup : 2 * s * distance ≤ 2 * scaled + distance)
    (hdown : 2 * scaled ≤ 2 * s * distance + distance)
    (hgreat : distance * power 2 52 ≤ n * scaled) (hmultiple : power 2 52 ≤ n * s) :
    Within n ((s * distance : Nat) : ℚ) (scaled : ℚ) := by
  have hdouble : power 2 53 = 2 * power 2 52 := rfl
  -- two to the power 53 is too great to be computed with
  generalize power 2 52 = half at *
  refine of_parts ?_ ?_
  · calc s * distance * power 2 53 = 2 * s * distance * half := by rw [hdouble]; ring
      _ ≤ (2 * scaled + distance) * half := Nat.mul_le_mul_right _ hup
      _ = scaled * (2 * half) + distance * half := by ring
      _ ≤ scaled * (2 * half) + n * scaled := Nat.add_le_add_left hgreat _
      _ = scaled * (power 2 53 + n) := by rw [hdouble]; ring
  · calc scaled * power 2 53 = 2 * scaled * half := by rw [hdouble]; ring
      _ ≤ (2 * s * distance + distance) * half := Nat.mul_le_mul_right _ hdown
      _ = s * distance * (2 * half) + distance * half := by ring
      _ ≤ s * distance * (2 * half) + distance * (n * s) :=
          Nat.add_le_add_left (Nat.mul_le_mul_left _ hmultiple) _
      _ = s * distance * (power 2 53 + n) := by rw [hdouble]; ring

end Within

/-! ### One rounding -/

namespace Magnitude

variable {num den : Nat}

/-- The value of a finite magnitude. -/
def value (m : Magnitude) : ℚ := m.units / (power 2 1074 : Nat)

/-- Magnitudes are not negative. -/
theorem value_nonneg (m : Magnitude) : 0 ≤ m.value :=
  div_nonneg (Nat.cast_nonneg _) (Nat.cast_nonneg _)

/-- **One rounding.**  A quotient of at least `least` units is rounded to a number that is `n`
    roundings apart, if `least` has all of the 53 bits but those that make up `n`. -/
theorem within_nearest {n least : Nat} (hden : 0 < den) (hbits : power 2 52 = n * least)
    (hleast : den * least ≤ num * power 2 1074) (hfinite : (nearest num den).isFinite = true) :
    Within n (nearest num den).value ((num : ℚ) / den) := by
  obtain ⟨distance, hneeded, hlt, hrank⟩ := exists_distance num hden
  obtain ⟨hnormal, hle⟩ := roundHalfEven_bounds hden hneeded hlt
  have hless : (nearest num den).rank < infiniteRank := of_decide_eq_true hfinite
  have hunits : (nearest num den).units
      = roundHalfEven (num * power 2 1074) (den * power 2 distance) * power 2 distance := by
    rw [units, ← unitsAt_step hle hnormal]
    congr 1
    omega
  have hfloor := le_roundHalfEven (num * power 2 1074) (den * power 2 distance)
  have hup := two_mul_roundHalfEven_le (num * power 2 1074) (den * power 2 distance)
  have hdown : 2 * (num * power 2 1074) ≤ _ :=
    two_mul_le_roundHalfEven (Nat.mul_pos hden (power_pos Nat.two_pos distance))
  have hn : 0 < n := Nat.pos_of_ne_zero fun hzero => by
    rw [hzero, Nat.zero_mul] at hbits
    exact absurd hbits (Nat.ne_of_gt (power_pos Nat.two_pos 52))
  have hunit : ((power 2 1074 : Nat) : ℚ) ≠ 0 := Nat.cast_ne_zero.2 (power_pos Nat.two_pos 1074).ne'
  have hscaled :
      (num : ℚ) / den = ((num * power 2 1074 : Nat) : ℚ) / (den * power 2 1074 : Nat) := by
    rw [Nat.cast_mul, Nat.cast_mul, mul_div_mul_right _ _ hunit]
  have hvalue : (nearest num den).value
      = (((nearest num den).units * den : Nat) : ℚ) / (den * power 2 1074 : Nat) := by
    rw [value, Nat.cast_mul, Nat.cast_mul, mul_comm (den : ℚ),
      mul_div_mul_right _ _ (Nat.cast_ne_zero.2 hden.ne')]
  rw [hvalue, hscaled, hunits]
  have hunit : (0 : ℚ) < (den * power 2 1074 : Nat) :=
    Nat.cast_pos.2 (Nat.mul_pos hden (power_pos Nat.two_pos 1074))
  generalize roundHalfEven (num * power 2 1074) (den * power 2 distance) = s at *
  generalize num * power 2 1074 = scaled at *
  -- both the quotient and the multiple of the distance are great against the distance
  have hgreat : den * power 2 distance * power 2 52 ≤ n * scaled := by
    rcases hneeded with rfl | hneeded
    · calc den * power 2 0 * power 2 52 = n * (den * least) := by
            rw [hbits, show power 2 0 = 1 from rfl]
            ring
        _ ≤ n * scaled := Nat.mul_le_mul_left n hleast
    · calc den * power 2 distance * power 2 52 = den * power 2 (distance + 52) := by
            rw [power_add, Nat.mul_assoc]
        _ ≤ scaled := hneeded
        _ ≤ n * scaled := Nat.le_mul_of_pos_left _ hn
  have hmultiple : power 2 52 ≤ n * s := by
    rcases hnormal with rfl | hnormal
    · rw [hbits]
      refine Nat.mul_le_mul_left n (Nat.le_trans ?_ hfloor)
      rw [show power 2 0 = 1 from rfl, Nat.mul_one, Nat.le_div_iff_mul_le hden, Nat.mul_comm]
      exact hleast
    · exact Nat.le_trans hnormal (Nat.le_mul_of_pos_left _ hn)
  have hwithin := Within.of_half_distance hup hdown hgreat hmultiple
  rw [show s * power 2 distance * den = s * (den * power 2 distance) by ring]
  exact hwithin.div (Within.refl _) (Nat.cast_nonneg _) (Nat.cast_nonneg _) hunit hunit

end Magnitude

/-! ### Midpoints -/

/-- One rounding does not lead from a midpoint to the next one. -/
theorem twiceMidpoint_mul_lt_succ (rank : Nat) :
    twiceMidpoint rank * (power 2 53 + 1) < twiceMidpoint (rank + 1) * power 2 53 := by
  obtain ⟨step, s, rfl, hs, hnormal⟩ := exists_step rank
  have hunit := power_pos Nat.two_pos step
  rw [twiceMidpoint_step hs hnormal]
  by_cases hlast : s + 1 = power 2 53
  · -- the next rank is the first one at the double distance
    have hnext : step * power 2 52 + s + 1 = (step + 1) * power 2 52 + power 2 52 := by
      rw [power_fiftyThree] at hlast
      rw [power_fiftyTwo]
      omega
    rw [hnext, twiceMidpoint_step (by decide) (.inr (Nat.le_refl _)), power_succ 2 step]
    have hless : (2 * s + 1) * (power 2 53 + 1) < (2 * power 2 52 + 1) * 2 * power 2 53 := by
      rw [power_fiftyThree] at hlast ⊢
      rw [power_fiftyTwo]
      omega
    generalize power 2 step = unit at *
    calc (2 * s + 1) * unit * (power 2 53 + 1) = (2 * s + 1) * (power 2 53 + 1) * unit := by ring
      _ < (2 * power 2 52 + 1) * 2 * power 2 53 * unit := Nat.mul_lt_mul_of_pos_right hless hunit
      _ = (2 * power 2 52 + 1) * (unit * 2) * power 2 53 := by ring
  · -- both ranks are at one distance
    rw [Nat.add_assoc, twiceMidpoint_step (Nat.lt_of_le_of_ne hs hlast)
      (hnormal.imp_right Nat.le_succ_of_le)]
    generalize power 2 step = unit at *
    have hless : (2 * s + 1) * (power 2 53 + 1) < (2 * (s + 1) + 1) * power 2 53 := by
      rw [power_fiftyThree] at hs ⊢
      omega
    calc (2 * s + 1) * unit * (power 2 53 + 1) = (2 * s + 1) * (power 2 53 + 1) * unit := by ring
      _ < (2 * (s + 1) + 1) * power 2 53 * unit := Nat.mul_lt_mul_of_pos_right hless hunit
      _ = (2 * (s + 1) + 1) * unit * power 2 53 := by ring

/-- **From midpoint to midpoint.**  Some roundings do not lead from a midpoint to the one that is as
    many ranks further. -/
theorem twiceMidpoint_mul_lt (rank : Nat) {n : Nat} (hn : 0 < n) :
    (twiceMidpoint rank : ℚ) * roundingFactor ^ n < twiceMidpoint (rank + n) := by
  have hpos : (0 : ℚ) < (power 2 53 : Nat) := Nat.cast_pos.2 (power_pos Nat.two_pos 53)
  have hone (r : Nat) : (twiceMidpoint r : ℚ) * roundingFactor < twiceMidpoint (r + 1) := by
    rw [roundingFactor, ← mul_div_assoc, div_lt_iff₀ hpos]
    exact_mod_cast twiceMidpoint_mul_lt_succ r
  -- each rounding is made up for by one rank
  induction n, hn using Nat.le_induction with
  | base =>
    rw [pow_one]
    exact hone rank
  | succ n _ ih =>
    calc (twiceMidpoint rank : ℚ) * roundingFactor ^ (n + 1)
        = twiceMidpoint rank * roundingFactor ^ n * roundingFactor := by ring
      _ < twiceMidpoint (rank + n) * roundingFactor :=
          mul_lt_mul_of_pos_right ih (lt_trans one_pos one_lt_roundingFactor)
      _ < twiceMidpoint (rank + (n + 1)) := hone (rank + n)

/-- The number `x` lies between the midpoints around a positive rank, and is one of them only if
    the rank is even; so the rank is the one that `x` is rounded to. -/
structure RoundsTo (rank : Nat) (x : ℚ) : Prop where
  /-- The rank has one below it. -/
  pos : 0 < rank
  /-- The number is not below the lower midpoint. -/
  ge : (twiceMidpoint (rank - 1) : ℚ) ≤ 2 * (x * (power 2 1074 : Nat))
  /-- The number is not above the upper midpoint. -/
  le : 2 * (x * (power 2 1074 : Nat)) ≤ twiceMidpoint rank
  /-- An odd rank is not rounded to from a midpoint. -/
  even : 2 * (x * (power 2 1074 : Nat)) = twiceMidpoint (rank - 1) ∨
    2 * (x * (power 2 1074 : Nat)) = twiceMidpoint rank → rank % 2 = 0

namespace RoundsTo

variable {rank n num den : Nat} {x : ℚ}

/-- A quotient against a midpoint, in rational numbers. -/
theorem cast_scaled (hden : 0 < den) (num : Nat) :
    ((2 * (num * power 2 1074) : Nat) : ℚ)
      = den * (2 * ((num : ℚ) / den * (power 2 1074 : Nat))) := by
  have hne : (den : ℚ) ≠ 0 := Nat.cast_ne_zero.2 hden.ne'
  generalize power 2 1074 = unit
  push_cast
  field_simp

/-- Roundings lead upwards by as many ranks at most. -/
theorem rank_nearest_le (h : RoundsTo rank x) (hden : 0 < den)
    (hwithin : Within n ((num : ℚ) / den) x) : (Magnitude.nearest num den).rank ≤ rank + n := by
  have hden' : (0 : ℚ) < den := Nat.cast_pos.2 hden
  have hscaled := cast_scaled hden num
  rcases Nat.eq_zero_or_pos n with rfl | hn
  · -- without a rounding the number is the quotient itself, also on a midpoint
    obtain rfl := hwithin.eq_of_zero
    refine Magnitude.rank_nearest_le hden ?_ fun htie => h.even (.inr ?_)
    · have hle := mul_le_mul_of_nonneg_left h.le hden'.le
      rw [← hscaled] at hle
      exact_mod_cast hle
    · have htie' : ((2 * (num * power 2 1074) : Nat) : ℚ) = den * twiceMidpoint rank := by
        rw [htie, Nat.cast_mul, Nat.add_zero]
      rw [hscaled] at htie'
      exact mul_left_cancel₀ hden'.ne' htie'
  · -- with a rounding, the next midpoints are out of reach
    have hless :
        ((2 * (num * power 2 1074) : Nat) : ℚ) < (den * twiceMidpoint (rank + n) : Nat) := by
      rw [hscaled, Nat.cast_mul]
      refine mul_lt_mul_of_pos_left ?_ hden'
      have hunit : (0 : ℚ) ≤ (power 2 1074 : Nat) := Nat.cast_nonneg _
      calc 2 * ((num : ℚ) / den * (power 2 1074 : Nat))
          ≤ 2 * (x * roundingFactor ^ n * (power 2 1074 : Nat)) :=
            mul_le_mul_of_nonneg_left (mul_le_mul_of_nonneg_right hwithin.le hunit) two_pos.le
        _ = 2 * (x * (power 2 1074 : Nat)) * roundingFactor ^ n := by ring
        _ ≤ twiceMidpoint rank * roundingFactor ^ n :=
            mul_le_mul_of_nonneg_right h.le (roundingFactor_pow_pos n).le
        _ < twiceMidpoint (rank + n) := twiceMidpoint_mul_lt rank hn
    have hless := Nat.cast_lt.1 hless
    exact Magnitude.rank_nearest_le hden hless.le fun htie => absurd htie hless.ne

/-- Roundings lead downwards by as many ranks at most. -/
theorem le_rank_nearest (h : RoundsTo rank x) (hrank : rank ≤ infiniteRank) (hden : 0 < den)
    (hwithin : Within n ((num : ℚ) / den) x) : rank ≤ (Magnitude.nearest num den).rank + n := by
  have hden' : (0 : ℚ) < den := Nat.cast_pos.2 hden
  have hscaled := cast_scaled hden num
  have hpos := h.pos
  -- ranks that are not above zero need no proof
  by_cases hfar : rank ≤ n
  · exact Nat.le_trans hfar (Nat.le_add_left _ _)
  refine Nat.le_add_of_sub_le ?_
  refine Nat.le_of_pred_lt (?_ : rank - n - 1 < _)
  rcases Nat.eq_zero_or_pos n with rfl | hn
  · -- without a rounding the number is the quotient itself, also on a midpoint
    obtain rfl := hwithin.eq_of_zero
    rw [Nat.sub_zero]
    refine Magnitude.lt_rank_nearest hden (by omega) ?_ fun htie => ?_
    · have hge := mul_le_mul_of_nonneg_left h.ge hden'.le
      rw [← hscaled] at hge
      exact_mod_cast hge
    · have htie' : ((2 * (num * power 2 1074) : Nat) : ℚ) = den * twiceMidpoint (rank - 1) := by
        rw [htie, Nat.cast_mul]
      rw [hscaled] at htie'
      have heven := h.even (.inl (mul_left_cancel₀ hden'.ne' htie'))
      omega
  · -- with a rounding, the midpoints before are out of reach
    have hless : ((den * twiceMidpoint (rank - n - 1) : Nat) : ℚ)
        < (2 * (num * power 2 1074) : Nat) := by
      rw [hscaled, Nat.cast_mul]
      refine mul_lt_mul_of_pos_left ?_ hden'
      refine lt_of_mul_lt_mul_right ?_ (roundingFactor_pow_pos n).le
      have hunit : (0 : ℚ) ≤ (power 2 1074 : Nat) := Nat.cast_nonneg _
      calc (twiceMidpoint (rank - n - 1) : ℚ) * roundingFactor ^ n
          < twiceMidpoint (rank - n - 1 + n) := twiceMidpoint_mul_lt _ hn
        _ = twiceMidpoint (rank - 1) := by rw [show rank - n - 1 + n = rank - 1 by omega]
        _ ≤ 2 * (x * (power 2 1074 : Nat)) := h.ge
        _ ≤ 2 * ((num : ℚ) / den * roundingFactor ^ n * (power 2 1074 : Nat)) :=
            mul_le_mul_of_nonneg_left (mul_le_mul_of_nonneg_right hwithin.ge hunit) two_pos.le
        _ = 2 * ((num : ℚ) / den * (power 2 1074 : Nat)) * roundingFactor ^ n := by ring
    have hless := Nat.cast_lt.1 hless
    exact Magnitude.lt_rank_nearest hden (by omega) hless.le fun htie => absurd htie hless.ne'

end RoundsTo

end D0L
