import D0L.Proofs.Binary64.Rounding

namespace D0L

/-!
# Which magnitude is nearest

A quotient is rounded to a rank if it lies between the midpoints around that rank, and at one of
them if the rank is even.

* `twiceMidpoint` — the midpoint between a rank and the next one; `twiceMidpoint_step` gives its
  value.
* `roundHalfEven_le`, `lt_roundHalfEven` — the integers that a quotient is rounded to.
* `Magnitude.rank_nearest_le`, `Magnitude.lt_rank_nearest` — quotients on one side of a midpoint are
  rounded to ranks on that side of it.
* `Magnitude.units_nearest_of_multiple` — integers with no more than 53 bits before their zeros are
  not rounded.
-/

/-- Twice the midpoint between a rank and the next one, in units of `2 ^ -1074`. -/
def twiceMidpoint (rank : Nat) : Nat := unitsAt rank + unitsAt (rank + 1)

/-- The midpoint above a rank whose distance is `2 ^ step`. -/
theorem twiceMidpoint_step {step s : Nat} (hs : s < power 2 53)
    (hnormal : step = 0 ∨ power 2 52 ≤ s) :
    twiceMidpoint (step * power 2 52 + s) = (2 * s + 1) * power 2 step := by
  rw [twiceMidpoint, unitsAt_step (Nat.le_of_lt hs) hnormal, Nat.add_assoc,
    unitsAt_step hs (hnormal.imp_right Nat.le_succ_of_le), ← Nat.add_mul]
  congr 1
  omega

/-! ### Integers -/

section Integers

variable {num den s : Nat}

/-- What is not above a half more than `s` is rounded to `s` at most, if `s` wins the tie. -/
theorem roundHalfEven_le (hden : 0 < den) (h : 2 * num ≤ (2 * s + 1) * den)
    (htie : 2 * num = (2 * s + 1) * den → s % 2 = 0) : roundHalfEven num den ≤ s := by
  have hfloor : den * (num / den) + num % den = num := Nat.div_add_mod num den
  have hrest : num % den < den := Nat.mod_lt _ hden
  have hle : num / den ≤ s := by
    refine Nat.le_of_lt_succ ((Nat.div_lt_iff_lt_mul hden).2 ?_)
    have hsucc : (2 * s + 1) * den + den = 2 * (s.succ * den) := by
      rw [Nat.succ_eq_add_one]
      ring
    omega
  have hexpand : (2 * s + 1) * den = 2 * (den * s) + den := by ring
  by_cases heq : num / den = s
  · -- the floor is `s`, so it must not be rounded up
    rw [heq] at hfloor
    simp only [roundHalfEven, heq]
    split
    · exact Nat.le_refl s
    · split
      · omega
      · rw [htie (by omega), Nat.add_zero]
  · -- the floor is less than `s`, and rounding adds one at most
    have hup := roundHalfEven_le_succ num den
    omega

/-- What is not below a half more than `s` is rounded to more than `s`, if `s` loses the tie. -/
theorem lt_roundHalfEven (hden : 0 < den) (h : (2 * s + 1) * den ≤ 2 * num)
    (htie : 2 * num = (2 * s + 1) * den → s % 2 = 1) : s < roundHalfEven num den := by
  have hfloor : den * (num / den) + num % den = num := Nat.div_add_mod num den
  have hrest : num % den < den := Nat.mod_lt _ hden
  have hge : s ≤ num / den := by
    refine (Nat.le_div_iff_mul_le hden).2 ?_
    have hsucc : (2 * s + 1) * den = 2 * (s * den) + den := by ring
    omega
  have hexpand : (2 * s + 1) * den = 2 * (den * s) + den := by ring
  by_cases heq : num / den = s
  · -- the floor is `s`, so it must be rounded up
    rw [heq] at hfloor
    simp only [roundHalfEven, heq]
    split
    · omega
    · split
      · exact Nat.lt_succ_self s
      · rw [htie (by omega)]
        exact Nat.lt_succ_self s
  · -- the floor is greater than `s`
    have hup := le_roundHalfEven num den
    omega

/-- Rounding takes away half of the distance at most. -/
theorem two_mul_le_roundHalfEven (hden : 0 < den) :
    2 * num ≤ 2 * roundHalfEven num den * den + den := by
  have hfloor : num / den * den + num % den = num := by
    rw [Nat.mul_comm]
    exact Nat.div_add_mod num den
  have hrest : num % den < den := Nat.mod_lt _ hden
  by_cases hdown : roundHalfEven num den = num / den
  · -- it has been rounded down, so the rest is half of the divisor at most
    have hhalf : 2 * (num % den) ≤ den := by
      simp only [roundHalfEven] at hdown
      split at hdown
      · omega
      · split at hdown <;> omega
    rw [hdown, Nat.mul_assoc]
    omega
  · have hup : num / den + 1 ≤ roundHalfEven num den :=
      Nat.lt_of_le_of_ne (le_roundHalfEven num den) (Ne.symm hdown)
    -- it has been rounded up, which is more than enough
    calc 2 * num ≤ 2 * (num / den + 1) * den := by
          rw [Nat.mul_assoc, Nat.add_mul]
          omega
      _ ≤ 2 * roundHalfEven num den * den := Nat.mul_le_mul_right _ (Nat.mul_le_mul_left _ hup)
      _ ≤ 2 * roundHalfEven num den * den + den := Nat.le_add_right _ _

/-- A multiple of the divisor is not rounded. -/
theorem roundHalfEven_mul (hden : 0 < den) : roundHalfEven (s * den) den = s := by
  simp only [roundHalfEven, Nat.mul_mod_left, Nat.mul_div_cancel s hden]
  rw [if_pos (by omega)]

end Integers

namespace Magnitude

/-! ### Quotients -/

section Quotients

variable {num den r : Nat}

/-- A quotient that is not above the midpoint after a rank is rounded to this rank at most, if the
    rank wins the tie. -/
theorem rank_nearest_le (hden : 0 < den) (h : 2 * (num * power 2 1074) ≤ den * twiceMidpoint r)
    (htie : 2 * (num * power 2 1074) = den * twiceMidpoint r → r % 2 = 0) :
    (nearest num den).rank ≤ r := by
  obtain ⟨step, s, rfl, hs, hnormal⟩ := exists_step r
  obtain ⟨distance, hneeded, hlt, hrank⟩ := exists_distance num hden
  rw [hrank]
  generalize num * power 2 1074 = scaled at *
  rw [twiceMidpoint_step hs hnormal, Nat.mul_left_comm den] at h htie
  refine Nat.le_trans (Nat.min_le_left _ _) ?_
  rcases Nat.lt_trichotomy distance step with hless | rfl | hmore
  · -- at a smaller distance there are only smaller ranks
    have hge : power 2 52 ≤ s := hnormal.resolve_left (by omega)
    have hle := (roundHalfEven_bounds hden hneeded hlt).2
    rw [power_fiftyThree] at hle
    rw [power_fiftyTwo] at hge ⊢
    omega
  · have hpos : 0 < den * power 2 distance := Nat.mul_pos hden (power_pos Nat.two_pos distance)
    refine Nat.add_le_add_left (roundHalfEven_le hpos h fun heq => ?_) _
    -- at the same distance it is a matter of rounding one quotient
    have heven := htie heq
    rw [power_fiftyTwo] at heven
    omega
  · -- a greater distance is needed only beyond the ranks at this one
    have hfar : den * power 2 (step + 53) ≤ scaled := Nat.le_trans
      (Nat.mul_le_mul_left den (power_le_power Nat.two_pos (by omega)))
      (hneeded.resolve_left (by omega))
    rw [Nat.add_comm, power_add, Nat.mul_left_comm] at hfar
    have hunit : 0 < den * power 2 step := Nat.mul_pos hden (power_pos Nat.two_pos step)
    have hless : 2 * s + 1 < 2 * power 2 53 := by omega
    have hcontra := Nat.mul_lt_mul_of_pos_right hless hunit
    rw [Nat.mul_assoc 2] at hcontra
    omega

/-- A quotient that is not below the midpoint after a rank is rounded to a greater rank, if the rank
    loses the tie. -/
theorem lt_rank_nearest (hden : 0 < den) (hr : r < infiniteRank)
    (h : den * twiceMidpoint r ≤ 2 * (num * power 2 1074))
    (htie : 2 * (num * power 2 1074) = den * twiceMidpoint r → r % 2 = 1) :
    r < (nearest num den).rank := by
  obtain ⟨step, s, rfl, hs, hnormal⟩ := exists_step r
  obtain ⟨distance, hneeded, hlt, hrank⟩ := exists_distance num hden
  rw [hrank]
  generalize num * power 2 1074 = scaled at *
  rw [twiceMidpoint_step hs hnormal, Nat.mul_left_comm den] at h htie
  refine Nat.lt_min.2 ⟨?_, hr⟩
  rcases Nat.lt_trichotomy distance step with hless | rfl | hmore
  · -- at a smaller distance the quotient would be below the ranks at this one
    have hge : power 2 52 ≤ s := hnormal.resolve_left (by omega)
    have hnear : scaled < den * power 2 (step + 52) :=
      Nat.lt_of_lt_of_le hlt (Nat.mul_le_mul_left den (power_le_power Nat.two_pos (by omega)))
    rw [Nat.add_comm, power_add, Nat.mul_left_comm] at hnear
    have hcontra := Nat.mul_le_mul_right (den * power 2 step)
      (show 2 * power 2 52 ≤ 2 * s + 1 by omega)
    rw [Nat.mul_assoc 2] at hcontra
    omega
  · have hpos : 0 < den * power 2 distance := Nat.mul_pos hden (power_pos Nat.two_pos distance)
    refine Nat.add_lt_add_left (lt_roundHalfEven hpos h fun heq => ?_) _
    -- at the same distance it is a matter of rounding one quotient
    have hodd := htie heq
    rw [power_fiftyTwo] at hodd
    omega
  · -- at a greater distance there are only greater ranks
    have hge := (roundHalfEven_bounds hden hneeded hlt).1.resolve_left (by omega)
    rw [power_fiftyThree] at hs
    rw [power_fiftyTwo] at hge ⊢
    omega

end Quotients

/-! ### Integers that are not rounded -/

/-- An integer with no more than 53 bits before its zeros is not rounded. -/
theorem units_nearest_of_multiple {s j : Nat} (hs : s < power 2 53)
    (hfinite : (nearest (s * power 2 j) 1).isFinite = true) :
    (nearest (s * power 2 j) 1).units = s * power 2 j * power 2 1074 := by
  obtain ⟨distance, hneeded, hlt, hrank⟩ := exists_distance (s * power 2 j) Nat.one_pos
  have hbounds := roundHalfEven_bounds Nat.one_pos hneeded hlt
  have hless : (nearest (s * power 2 j) 1).rank < infiniteRank := of_decide_eq_true hfinite
  rw [units]
  generalize (nearest (s * power 2 j) 1).rank = rank at *
  rw [Nat.mul_assoc, ← power_add, Nat.one_mul] at hneeded hbounds hrank
  rw [Nat.mul_assoc, ← power_add]
  generalize j + 1074 = zeros at *
  -- the distance divides the number of units, since it is needed for no more than 53 bits
  have hdistance : distance ≤ zeros := by
    rcases hneeded with rfl | hneeded
    · exact Nat.zero_le _
    · refine Nat.le_of_lt_succ (Nat.lt_of_not_le fun hge => ?_)
      have hbits : s * power 2 zeros < power 2 (53 + zeros) := by
        rw [power_add 2 53]
        exact Nat.mul_lt_mul_of_pos_right hs (power_pos Nat.two_pos _)
      have hpower : power 2 (53 + zeros) ≤ power 2 (distance + 52) :=
        power_le_power Nat.two_pos (by omega)
      omega
  have hexact : s * power 2 zeros = s * power 2 (zeros - distance) * power 2 distance := by
    rw [Nat.mul_assoc, ← power_add, Nat.sub_add_cancel hdistance]
  rw [hexact, roundHalfEven_mul (power_pos Nat.two_pos distance)] at hrank hbounds
  rw [hexact, ← unitsAt_step hbounds.2 hbounds.1]
  congr 1
  omega

end Magnitude

end D0L
