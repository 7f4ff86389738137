import D0L.Proofs.Binary64.Grids
import D0L.Proofs.Json.Numbers

namespace D0L

/-!
# How far scaling leads from a decimal

The reader rounds the digits of a number, rounds the power of ten, and then multiplies or divides;
below `10 ^ -308` it divides twice.  This file counts these roundings.  Digits up to `2 ^ 53` and
powers of ten up to `10 ^ 22` are numbers of the format, so they do not count.

* `Decimal.roundings` — the roundings before the last one.
* `Magnitude.within_digits`, `Magnitude.within_power` — the two numbers that are scaled.
* `Decimal.Scales` — a number nearest to a quotient that is as many roundings apart from a decimal;
  by `Decimal.scales_of_scale?` the reader finds no others.
-/

open Json

/-- The roundings that scaling a decimal takes before the last one; the first one of two divisions
    counts for four, since its result can have less than 53 bits. -/
def Decimal.roundings (d : Decimal) : Nat :=
  (if d.digits ≤ power 2 53 then 0 else 1)
    + (if d.exponent.natAbs ≤ 22 then 0 else if -308 ≤ d.exponent then 1 else 5)

namespace Magnitude

variable {m n : Magnitude}

/-! ### Integers -/

/-- An integer below the last midpoint is not rounded to infinity. -/
theorem isFinite_nearest_one {n : Nat} (h : n < (power 2 54 - 1) * power 2 970) :
    (nearest n 1).isFinite = true := by
  refine isFinite_nearest Nat.one_pos ?_
  have hsplit : power 2 2044 = power 2 970 * power 2 1074 := power_add 2 970 1074
  rw [Nat.one_mul, hsplit, ← Nat.mul_assoc]
  exact Nat.mul_lt_mul_of_pos_right h (power_pos Nat.two_pos 1074)

/-- An integer with no more than 53 bits before its zeros is a number of the format. -/
theorem value_nearest_of_multiple {s j : Nat} (hs : s < power 2 53)
    (hfinite : (nearest (s * power 2 j) 1).isFinite = true) :
    (nearest (s * power 2 j) 1).value = (s * power 2 j : Nat) := by
  rw [value, units_nearest_of_multiple hs hfinite, Nat.cast_mul,
    mul_div_cancel_right₀ _ (Nat.cast_ne_zero.2 (power_pos Nat.two_pos 1074).ne')]

/-- A positive integer is rounded once. -/
theorem within_nearest_one {n : Nat} (hn : 0 < n) (hfinite : (nearest n 1).isFinite = true) :
    Within 1 (nearest n 1).value n := by
  have hleast : 1 * power 2 52 ≤ n * power 2 1074 :=
    Nat.mul_le_mul hn (power_le_power Nat.two_pos (by decide))
  have hwithin := within_nearest Nat.one_pos (Nat.one_mul _).symm hleast hfinite
  rwa [Nat.cast_one, div_one] at hwithin

/-- A positive integer is rounded to one at least. -/
theorem le_units_nearest {n : Nat} (hn : 0 < n) : power 2 1074 ≤ (nearest n 1).units := by
  -- even one, the least of them, is above the midpoint below its own rank
  have hrank : 1021 * power 2 52 + (power 2 53 - 1) < (nearest n 1).rank := by
    have hmidpoint : 1 * twiceMidpoint (1021 * power 2 52 + (power 2 53 - 1))
        < 2 * (n * power 2 1074) := by
      rw [twiceMidpoint_step (by decide) (.inr (by decide)), Nat.one_mul, ← Nat.mul_assoc]
      have hsplit : power 2 1074 = power 2 53 * power 2 1021 := power_add 2 53 1021
      rw [hsplit, ← Nat.mul_assoc]
      refine Nat.mul_lt_mul_of_pos_right ?_ (power_pos Nat.two_pos 1021)
      rw [power_fiftyThree]
      omega
    exact lt_rank_nearest Nat.one_pos (by decide) hmidpoint.le
      fun htie => absurd htie hmidpoint.ne'
  have hone : unitsAt (1022 * power 2 52 + power 2 52) = power 2 1074 := by
    rw [unitsAt_step (by decide) (.inr (Nat.le_refl _)), ← power_add]
  rw [← hone]
  refine unitsAt_le_unitsAt ?_
  rw [power_fiftyTwo] at *
  rw [power_fiftyThree] at hrank
  omega

/-- A positive integer is not rounded to less than one. -/
theorem one_le_value_nearest {n : Nat} (hn : 0 < n) : 1 ≤ (nearest n 1).value := by
  rw [value, one_le_div (Nat.cast_pos.2 (power_pos Nat.two_pos 1074))]
  exact_mod_cast le_units_nearest hn

/-- A power of ten is not rounded to less than one. -/
theorem le_units_power (k : Nat) : power 2 1074 ≤ (nearest (power 10 k) 1).units :=
  le_units_nearest (power_pos (Nat.succ_pos 9) k)

/-- A power of ten is not rounded to zero. -/
theorem units_power_pos (k : Nat) : 0 < (nearest (power 10 k) 1).units :=
  Nat.lt_of_lt_of_le (power_pos Nat.two_pos 1074) (le_units_power k)

/-- A power of ten can be divided by after it has been rounded. -/
theorem value_power_pos (k : Nat) : 0 < (nearest (power 10 k) 1).value :=
  lt_of_lt_of_le one_pos (one_le_value_nearest (power_pos (Nat.succ_pos 9) k))

/-- The digits of a number. -/
theorem within_digits {digits : Nat} (hpos : 0 < digits)
    (hfinite : (nearest digits 1).isFinite = true) :
    Within (if digits ≤ power 2 53 then 0 else 1) (nearest digits 1).value digits := by
  split
  · rename_i hle
    -- `2 ^ 53` itself is a power of two
    have hexact : (nearest digits 1).value = digits := by
      rcases Nat.lt_or_eq_of_le hle with hlt | rfl
      · have hone : digits = digits * power 2 0 := (Nat.mul_one digits).symm
        rw [hone] at hfinite ⊢
        exact value_nearest_of_multiple hlt hfinite
      · have hone : power 2 53 = 1 * power 2 53 := (Nat.one_mul _).symm
        rw [hone] at hfinite ⊢
        exact value_nearest_of_multiple (by decide) hfinite
    rw [hexact]
    exact Within.refl _
  · exact within_nearest_one hpos hfinite

/-- The powers of ten that the reader has are finite. -/
theorem isFinite_power {k : Nat} (hk : k ≤ 308) : (nearest (power 10 k) 1).isFinite = true := by
  have hgreat : power 10 308 < (power 2 54 - 1) * power 2 970 := by decide +kernel
  exact isFinite_nearest_one (Nat.lt_of_le_of_lt (power_le_power (Nat.succ_pos 9) hk) hgreat)

/-- A power of ten. -/
theorem within_power {k : Nat} (hk : k ≤ 308) :
    Within (if k ≤ 22 then 0 else 1) (nearest (power 10 k) 1).value (10 ^ k) := by
  have hfinite := isFinite_power hk
  rw [← cast_power]
  split
  · rename_i hsmall
    have hfive : power 5 k < power 2 53 :=
      Nat.lt_of_le_of_lt (power_le_power (Nat.succ_pos 4) hsmall) (by decide)
    rw [power_ten] at hfinite ⊢
    rw [value_nearest_of_multiple hfive hfinite]
    exact Within.refl _
  · exact within_nearest_one (power_pos (Nat.succ_pos 9) k) hfinite

/-! ### Products and quotients -/

/-- The quotient that a product is rounded from is the product of the values. -/
theorem cast_times (m n : Magnitude) :
    ((m.units * n.units : Nat) : ℚ) / (power 2 1074 * power 2 1074 : Nat) = m.value * n.value := by
  rw [value, value, Nat.cast_mul, Nat.cast_mul, mul_div_mul_comm]

/-- Units cancel in a quotient. -/
theorem cast_dividedBy (m n : Magnitude) :
    ((m.units : Nat) : ℚ) / (n.units : Nat) = m.value / n.value := by
  rw [value, value, div_div_div_cancel_right₀ (Nat.cast_ne_zero.2 (power_pos Nat.two_pos 1074).ne')]

/-- A quotient by a number from one on is finite. -/
theorem isFinite_dividedBy (hm : m.isFinite = true) (hn : power 2 1074 ≤ n.units) :
    (m.dividedBy n).isFinite = true := by
  have hless : m.rank < infiniteRank := of_decide_eq_true hm
  have hinfinite : infiniteRank = 2045 * power 2 52 + power 2 53 := by decide
  have hunits : m.units ≤ unitsAt (2045 * power 2 52 + (power 2 53 - 1)) :=
    unitsAt_le_unitsAt (by rw [power_fiftyThree] at *; omega)
  rw [unitsAt_step (Nat.sub_le _ _) (.inr (by decide))] at hunits
  have hunit : 0 < n.units := Nat.lt_of_lt_of_le (power_pos Nat.two_pos 1074) hn
  refine isFinite_nearest hunit ?_
  have hdouble : power 2 2045 = power 2 2044 * 2 := power_succ 2 2044
  -- a divisor of at least one leaves the greatest finite number below the last midpoint
  have hgreatest : (power 2 53 - 1) * power 2 2045 < (power 2 54 - 1) * power 2 2044 := by
    rw [hdouble, Nat.mul_comm (power 2 2044), ← Nat.mul_assoc]
    exact Nat.mul_lt_mul_of_pos_right (by decide) (power_pos Nat.two_pos 2044)
  calc m.units * power 2 1074 ≤ m.units * n.units := Nat.mul_le_mul_left _ hn
    _ = n.units * m.units := Nat.mul_comm _ _
    _ < n.units * ((power 2 54 - 1) * power 2 2044) :=
        Nat.mul_lt_mul_of_pos_left (Nat.lt_of_le_of_lt hunits hgreatest) hunit

/-- The first of two quotients may be subnormal, but it is so great that rounding it is worth four
    roundings of a normal number at most. -/
theorem units_power_mul_le {digits : Nat} (hpos : 0 < digits) :
    (nearest (power 10 308) 1).units * power 2 50 ≤ (nearest digits 1).units * power 2 1074 := by
  have hunits := units_nearest_le (power_pos (Nat.succ_pos 9) 308)
  have hdigits := le_units_nearest hpos
  have hgreat : power 10 308 * (power 2 53 + 1) * power 2 50 ≤ power 2 1074 * power 2 53 := by
    decide +kernel
  have hscale := power_pos Nat.two_pos 53
  -- the numbers are too large to be looked at
  generalize (nearest (power 10 308) 1).units = great at *
  generalize (nearest digits 1).units = units at *
  generalize power 2 1074 = unit at *
  generalize power 10 308 = ten at *
  generalize power 2 53 = bits at *
  refine Nat.le_of_mul_le_mul_right (?_ : _ * bits ≤ _) hscale
  calc great * power 2 50 * bits = great * bits * power 2 50 := by ring
    _ ≤ ten * unit * (bits + 1) * power 2 50 := Nat.mul_le_mul_right _ hunits
    _ = ten * (bits + 1) * power 2 50 * unit := by ring
    _ ≤ unit * bits * unit := Nat.mul_le_mul_right _ hgreat
    _ ≤ units * bits * unit := Nat.mul_le_mul_right _ (Nat.mul_le_mul_right _ hdigits)
    _ = units * unit * bits := by ring

/-- The first one of two divisions.  Its result can have two bits less than others. -/
theorem within_firstQuotient {digits : Nat} (hpos : 0 < digits)
    (hfinite : (nearest digits 1).isFinite = true) :
    ((nearest digits 1).dividedBy (nearest (power 10 308) 1)).isFinite = true ∧
      Within ((if digits ≤ power 2 53 then 0 else 1) + 5)
        ((nearest digits 1).dividedBy (nearest (power 10 308) 1)).value (digits / 10 ^ 308) := by
  have hquotient := isFinite_dividedBy hfinite (le_units_power 308)
  refine ⟨hquotient, ?_⟩
  have hpower : Within 1 (nearest (power 10 308) 1).value (10 ^ 308) :=
    within_power (Nat.le_refl 308)
  have hdivided := (within_digits hpos hfinite).div hpower (value_nonneg _) (Nat.cast_nonneg _)
    (value_power_pos 308) (pow_pos (by norm_num) 308)
  -- the quotient may be subnormal, but it keeps enough bits to be rounded by a part of its size
  have hrounded := within_nearest (n := 4) (units_power_pos 308) (by decide)
    (units_power_mul_le hpos) hquotient
  rw [cast_dividedBy] at hrounded
  have hall := hrounded.trans hdivided
  rwa [show 4 + ((if digits ≤ power 2 53 then 0 else 1) + 1)
    = (if digits ≤ power 2 53 then 0 else 1) + 5 by omega] at hall

/-- Two divisions, the second one by a power of ten that is not rounded. -/
theorem within_secondQuotient {digits k : Nat} (hpos : 0 < digits)
    (hfinite : (nearest digits 1).isFinite = true) (hk : k ≤ 22) :
    (((nearest digits 1).dividedBy (nearest (power 10 308) 1)).dividedBy
        (nearest (power 10 k) 1)).isFinite = true ∧
      Within ((if digits ≤ power 2 53 then 0 else 1) + 5)
        ((((nearest digits 1).dividedBy (nearest (power 10 308) 1)).units : ℚ)
          / (nearest (power 10 k) 1).units) (digits / 10 ^ (308 + k)) := by
  obtain ⟨hquotient, hfirst⟩ := within_firstQuotient hpos hfinite
  refine ⟨isFinite_dividedBy hquotient (le_units_power k), ?_⟩
  have hsecond := within_power (Nat.le_trans hk (by decide))
  rw [if_pos hk] at hsecond
  rw [cast_dividedBy, pow_add, ← div_div]
  exact hfirst.div hsecond (value_nonneg _)
    (div_nonneg (Nat.cast_nonneg _) (pow_pos (by norm_num) 308).le) (value_power_pos k)
    (pow_pos (by norm_num) k)

end Magnitude

/-! ### Scaling -/

namespace Decimal

/-- Within the range of one scaling the roundings are one for the digits, if they do not fit, and
    one for the power, if it does not. -/
theorem roundings_eq (digits : Nat) {exponent : Int} (h : -308 ≤ exponent) :
    (⟨digits, exponent⟩ : Decimal).roundings
      = (if digits ≤ power 2 53 then 0 else 1) + if exponent.natAbs ≤ 22 then 0 else 1 := by
  simp only [roundings, if_pos h]

/-- What is counted for two divisions. -/
theorem roundings_eq_of_lt (digits : Nat) {exponent : Int} (h : exponent < -308) :
    (⟨digits, exponent⟩ : Decimal).roundings = (if digits ≤ power 2 53 then 0 else 1) + 5 := by
  simp only [roundings]
  rw [if_neg (show ¬ exponent.natAbs ≤ 22 by omega), if_neg (show ¬ -308 ≤ exponent by omega)]

/-- What a decimal can be scaled to: a finite magnitude, nearest to a quotient that is as many
    roundings apart from the decimal as are counted. -/
def Scales (d : Decimal) (n : Magnitude) : Prop :=
  n.isFinite = true ∧ ∃ num den, 0 < den ∧ n = .nearest num den ∧
    Within d.roundings ((num : ℚ) / den) d.value

end Decimal

namespace Magnitude

variable {digits k : Nat}

/-- A product is as far from the decimal as is counted, unless it is beyond the finite numbers. -/
theorem scales_times (hpos : 0 < digits) (hfinite : (nearest digits 1).isFinite = true)
    (hk : k ≤ 308)
    (hproduct : ((nearest digits 1).times (nearest (power 10 k) 1)).isFinite = true) :
    Decimal.Scales ⟨digits, .ofNat k⟩ ((nearest digits 1).times (nearest (power 10 k) 1)) := by
  have hlow : (-308 : Int) ≤ Int.ofNat k := Int.le_trans (by decide) (Int.natCast_nonneg k)
  have hunit := power_pos Nat.two_pos 1074
  refine ⟨hproduct, _, _, Nat.mul_pos hunit hunit, rfl, ?_⟩
  rw [cast_times, Decimal.value_ofNat, Decimal.roundings_eq digits hlow]
  exact (within_digits hpos hfinite).mul (within_power hk) (value_nonneg _) (Nat.cast_nonneg _)
    (value_nonneg _) (pow_pos (by norm_num) k).le

/-- So is a quotient by one power of ten, which must be a finite number. -/
theorem scales_dividedBy (hpos : 0 < digits) (hfinite : (nearest digits 1).isFinite = true)
    (hk : k + 1 ≤ 308) :
    Decimal.Scales ⟨digits, .negSucc k⟩
      ((nearest digits 1).dividedBy (nearest (power 10 (k + 1)) 1)) := by
  refine ⟨isFinite_dividedBy hfinite (le_units_power _), _, _, units_power_pos _, rfl, ?_⟩
  rw [cast_dividedBy, Decimal.value_negSucc, Decimal.roundings_eq digits (by omega)]
  exact (within_digits hpos hfinite).div (within_power hk) (value_nonneg _) (Nat.cast_nonneg _)
    (value_power_pos _) (pow_pos (by norm_num) _)

/-- So is what two divisions lead to, the second one by what is left of the power of ten. -/
theorem scales_dividedBy_dividedBy (hpos : 0 < digits)
    (hfinite : (nearest digits 1).isFinite = true) (hmore : 308 < k + 1) (hk : k + 1 ≤ 330) :
    Decimal.Scales ⟨digits, .negSucc k⟩
      (((nearest digits 1).dividedBy (nearest (power 10 308) 1)).dividedBy
        (nearest (power 10 (k + 1 - 308)) 1)) := by
  have hsmall : k + 1 - 308 ≤ 22 := by omega
  have hsum : 308 + (k + 1 - 308) = k + 1 := by omega
  obtain ⟨hquotient, hwithin⟩ := within_secondQuotient hpos hfinite hsmall
  refine ⟨hquotient, _, _, units_power_pos _, rfl, ?_⟩
  rw [hsum] at hwithin
  rw [Decimal.value_negSucc, Decimal.roundings_eq_of_lt digits (by omega)]
  exact hwithin

end Magnitude

namespace Decimal

/-- **Scaling.**  Whatever a decimal within the range of the format is scaled to, the roundings are
    as many as are counted. -/
theorem scales_of_scale? {d : Decimal} {n : Magnitude} (hpos : 0 < d.digits)
    (hfits : d.digits ≤ Numeral.maxWord) (hlow : -324 ≤ d.exponent) (hhigh : d.exponent ≤ 308)
    (h : scale? d.digits d.exponent = some n) : d.Scales n := by
  obtain ⟨digits, exponent⟩ := d
  simp only at hpos hfits hlow hhigh h
  have hfinite : (Magnitude.nearest digits 1).isFinite = true := by
    have hgreat : Numeral.maxWord < (power 2 54 - 1) * power 2 970 := by decide +kernel
    exact Magnitude.isFinite_nearest_one (Nat.lt_of_le_of_lt hfits hgreat)
  have hgreatest : greatestPower = 308 := rfl
  -- the cases are those of the definition
  cases exponent with
  | ofNat k =>
    have hk : k ≤ greatestPower := Int.ofNat_le.1 hhigh
    simp only [scale?, if_pos hk] at h
    split at h
    · rename_i hproduct
      obtain rfl := Option.some.inj h
      exact Magnitude.scales_times hpos hfinite hk hproduct
    · exact absurd h (by simp)
  | negSucc k =>
    by_cases hk : k + 1 ≤ greatestPower
    · simp only [scale?, if_pos hk] at h
      obtain rfl := Option.some.inj h
      exact Magnitude.scales_dividedBy hpos hfinite hk
    · have htwice : k + 1 ≤ 2 * greatestPower := by omega
      simp only [scale?, if_neg hk, if_pos htwice] at h
      obtain rfl := Option.some.inj h
      exact Magnitude.scales_dividedBy_dividedBy hpos hfinite (by omega) (by omega)

end Decimal

end D0L
