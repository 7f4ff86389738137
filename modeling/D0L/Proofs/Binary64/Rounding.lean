import D0L.Binary64.Basic
import Mathlib.Tactic.Ring

namespace D0L

/-!
# How far rounding goes

Magnitudes are rounded at a distance that is a power of two.  This file bounds what rounding adds:
at most half of that distance, so at most one part in `2 ^ 53` of a number from one on.

* `exists_step` — every rank by its distance and its multiple of it; `unitsAt_step` gives its value.
* `unitsAt_le_unitsAt` — values ascend with the ranks.
* `Magnitude.exists_distance` — the distance at which `Magnitude.nearest` rounds.
* `Magnitude.Rounds`, `Magnitude.exists_rounds` — how it rounds at that distance.
* `Magnitude.units_nearest_le` — what rounding a number from one on adds to it at most.
* `Magnitude.isFinite_nearest` — a quotient below `(2 ^ 54 - 1) * 2 ^ 970` is finite.
* `Magnitude.isFinite_times` — the rounded product of two rounded numbers is finite, if their
  product is not among the greatest numbers.
-/

/-- The ranks from one distance to the next. -/
theorem power_fiftyTwo : power 2 52 = 4503599627370496 := rfl

/-- The integers that have no more than 53 bits. -/
theorem power_fiftyThree : power 2 53 = 9007199254740992 := rfl

/-! ### Values of ranks -/

/-- The value of a rank whose distance is `2 ^ step`. -/
theorem unitsAt_step {step s : Nat} (hs : s ≤ power 2 53) (hnormal : step = 0 ∨ power 2 52 ≤ s) :
    unitsAt (step * power 2 52 + s) = s * power 2 step := by
  rw [power_fiftyThree] at hs
  rw [unitsAt, power_fiftyTwo] at *
  by_cases htop : s = 9007199254740992
  · -- the first rank of the next distance
    have hstep : (step * 4503599627370496 + s) / 4503599627370496 - 1 = step + 1 := by omega
    have hrest : step * 4503599627370496 + s - (step + 1) * 4503599627370496
        = 4503599627370496 := by omega
    simp only [hstep, hrest]
    rw [power_succ, htop]
    ring
  · have hstep : (step * 4503599627370496 + s) / 4503599627370496 - 1 = step := by omega
    have hrest : step * 4503599627370496 + s - step * 4503599627370496 = s := by omega
    simp only [hstep, hrest]

/-- Every rank has a distance. -/
theorem exists_step (rank : Nat) :
    ∃ step s, rank = step * power 2 52 + s ∧ s < power 2 53 ∧ (step = 0 ∨ power 2 52 ≤ s) := by
  refine ⟨rank / power 2 52 - 1, rank - (rank / power 2 52 - 1) * power 2 52, ?_, ?_, ?_⟩ <;>
    rw [power_fiftyTwo] <;> try rw [power_fiftyThree]
  · omega
  · omega
  · omega

/-- The next rank has no smaller value, also where the distance doubles. -/
theorem unitsAt_le_succ (rank : Nat) : unitsAt rank ≤ unitsAt (rank + 1) := by
  obtain ⟨step, s, rfl, hs, hnormal⟩ := exists_step rank
  rw [Nat.add_assoc, unitsAt_step (Nat.le_of_lt hs) hnormal,
    unitsAt_step hs (hnormal.imp_right Nat.le_succ_of_le)]
  exact Nat.mul_le_mul_right _ (Nat.le_succ s)

/-- Values ascend with the ranks. -/
theorem unitsAt_le_unitsAt {m n : Nat} (h : m ≤ n) : unitsAt m ≤ unitsAt n := by
  induction h with
  | refl => exact Nat.le_refl _
  | step _ ih => exact Nat.le_trans ih (unitsAt_le_succ _)

/-- Only the rank of zero has the value zero. -/
theorem unitsAt_pos {rank : Nat} (h : 0 < rank) : 0 < unitsAt rank := by
  have hone : unitsAt 1 = 1 := rfl
  have hle : unitsAt 1 ≤ unitsAt rank := unitsAt_le_unitsAt h
  omega

/-! ### Integers -/

/-- Rounding does not go below the whole part. -/
theorem le_roundHalfEven (num den : Nat) : num / den ≤ roundHalfEven num den := by
  simp only [roundHalfEven]
  split
  · exact Nat.le_refl _
  · split
    · exact Nat.le_succ _
    · exact Nat.le_add_right _ _

/-- Rounding does not go above the integer behind the whole part. -/
theorem roundHalfEven_le_succ (num den : Nat) : roundHalfEven num den ≤ num / den + 1 := by
  simp only [roundHalfEven]
  split
  · exact Nat.le_succ _
  · split
    · exact Nat.le_refl _
    · omega

/-- Rounding adds half of the distance at most. -/
theorem two_mul_roundHalfEven_le (num den : Nat) :
    2 * roundHalfEven num den * den ≤ 2 * num + den := by
  have hfloor : num / den * den + num % den = num := by
    rw [Nat.mul_comm]
    exact Nat.div_add_mod num den
  by_cases hup : roundHalfEven num den = num / den + 1
  · -- it has been rounded up, so the rest is half of the divisor at least
    have hrest : den ≤ 2 * (num % den) := by
      simp only [roundHalfEven] at hup
      split at hup <;> omega
    rw [hup]
    calc 2 * (num / den + 1) * den = 2 * (num / den * den) + 2 * den := by ring
      _ ≤ 2 * num + den := by omega
  · have hle := roundHalfEven_le_succ num den
    -- otherwise it has been rounded down
    have hdown : roundHalfEven num den ≤ num / den := by omega
    calc 2 * roundHalfEven num den * den ≤ 2 * (num / den) * den :=
          Nat.mul_le_mul_right _ (Nat.mul_le_mul_left _ hdown)
      _ = 2 * (num / den * den) := by ring
      _ ≤ 2 * num + den := by omega

namespace Magnitude

/-! ### Quotients -/

/-- How a quotient is rounded: to `s` times the distance `2 ^ step`. -/
structure Rounds (num den step s : Nat) : Prop where
  /-- There is a rank for it. -/
  le : s ≤ power 2 53
  /-- No greater distance would do. -/
  normal : step = 0 ∨ power 2 52 ≤ s
  /-- The quotient is so great that the distance is needed. -/
  distance_le : step = 0 ∨ den * power 2 (step + 52) ≤ num * power 2 1074
  /-- The quotient is less than what the distance is for. -/
  lt : num * power 2 1074 < den * power 2 (step + 53)
  /-- What is added is half of the distance at most. -/
  added_le : 2 * s * (den * power 2 step) ≤ 2 * (num * power 2 1074) + den * power 2 step

/-- The distance at which a number of units is rounded. -/
theorem log2_bounds (n : Nat) :
    n < power 2 (n.log2 - 52 + 53) ∧ (n.log2 - 52 = 0 ∨ power 2 (n.log2 - 52 + 52) ≤ n) := by
  constructor
  · have hlt : n < power 2 (n.log2 + 1) := Nat.lt_log2_self
    exact Nat.lt_of_lt_of_le hlt (power_le_power Nat.two_pos (by omega))
  · by_cases hstep : n.log2 - 52 = 0
    · exact .inl hstep
    · have hne : n ≠ 0 := by
        rintro rfl
        exact hstep rfl
      have hle : power 2 n.log2 ≤ n := Nat.log2_self_le hne
      rw [show n.log2 - 52 + 52 = n.log2 by omega]
      exact .inr hle

/-- A quotient is rounded at a distance `2 ^ step` that it needs, and is less than what the distance
    is for. -/
theorem exists_distance (num : Nat) {den : Nat} (hden : 0 < den) :
    ∃ step, (step = 0 ∨ den * power 2 (step + 52) ≤ num * power 2 1074) ∧
      num * power 2 1074 < den * power 2 (step + 53) ∧
      (nearest num den).rank = min
        (step * power 2 52 + roundHalfEven (num * power 2 1074) (den * power 2 step))
        infiniteRank := by
  obtain ⟨hlt, hge⟩ := log2_bounds (num * power 2 1074 / den)
  refine ⟨(num * power 2 1074 / den).log2 - 52, ?_, ?_, rfl⟩
  · refine hge.imp_right fun hge => ?_
    rw [Nat.mul_comm den]
    exact (Nat.le_div_iff_mul_le hden).1 hge
  · rw [Nat.mul_comm den]
    exact (Nat.div_lt_iff_lt_mul hden).1 hlt

/-- What a quotient is rounded to at its distance: at least `2 ^ 52` if the distance is needed, and
    never more than `2 ^ 53`. -/
theorem roundHalfEven_bounds {scaled den distance : Nat} (hden : 0 < den)
    (hneeded : distance = 0 ∨ den * power 2 (distance + 52) ≤ scaled)
    (hlt : scaled < den * power 2 (distance + 53)) :
    (distance = 0 ∨ power 2 52 ≤ roundHalfEven scaled (den * power 2 distance)) ∧
      roundHalfEven scaled (den * power 2 distance) ≤ power 2 53 := by
  have hpos : 0 < den * power 2 distance := Nat.mul_pos hden (power_pos Nat.two_pos distance)
  have habove := le_roundHalfEven scaled (den * power 2 distance)
  have hbelow := roundHalfEven_le_succ scaled (den * power 2 distance)
  constructor
  · refine hneeded.imp_right fun hneeded => Nat.le_trans ?_ habove
    rw [Nat.le_div_iff_mul_le hpos, Nat.mul_left_comm, ← power_add, Nat.add_comm 52]
    exact hneeded
  · have hfloor : scaled / (den * power 2 distance) < power 2 53 := by
      rw [Nat.div_lt_iff_lt_mul hpos, Nat.mul_left_comm, ← power_add, Nat.add_comm 53]
      exact hlt
    omega

/-- A quotient is rounded to a multiple of its distance; beyond the finite numbers the rank stops.
    -/
theorem exists_rounds (num : Nat) {den : Nat} (hden : 0 < den) :
    ∃ step s, Rounds num den step s ∧
      (nearest num den).rank = min (step * power 2 52 + s) infiniteRank := by
  obtain ⟨step, hdistance, hlt, hrank⟩ := exists_distance num hden
  obtain ⟨hnormal, hle⟩ := roundHalfEven_bounds hden hdistance hlt
  exact ⟨step, _, ⟨hle, hnormal, hdistance, hlt, two_mul_roundHalfEven_le _ _⟩, hrank⟩

/-- **What rounding adds.**  A number from one on grows by one part in `2 ^ 53` at most. -/
theorem units_nearest_le {n : Nat} (hn : 0 < n) :
    (nearest n 1).units * power 2 53 ≤ n * power 2 1074 * (power 2 53 + 1) := by
  obtain ⟨step, s, h, hrank⟩ := exists_rounds n Nat.one_pos
  have hunits : (nearest n 1).units ≤ s * power 2 step := by
    rw [units, hrank, ← unitsAt_step h.le h.normal]
    exact unitsAt_le_unitsAt (Nat.min_le_left _ _)
  -- the distance is one part in `2 ^ 52` of the number at most, and half of it is added
  have hdistance : power 2 step * power 2 52 ≤ n * power 2 1074 := by
    rw [← power_add]
    rcases h.distance_le with hzero | hle
    · calc power 2 (step + 52) ≤ power 2 1074 := power_le_power Nat.two_pos (by omega)
        _ = 1 * power 2 1074 := (Nat.one_mul _).symm
        _ ≤ n * power 2 1074 := Nat.mul_le_mul_right _ hn
    · rwa [Nat.one_mul] at hle
  have hadded : 2 * s * power 2 step ≤ 2 * (n * power 2 1074) + power 2 step := by
    have hadded := h.added_le
    rwa [Nat.one_mul] at hadded
  have hdouble : power 2 53 = power 2 52 * 2 := power_succ 2 52
  generalize n * power 2 1074 = scaled at *
  generalize power 2 step = distance at *
  generalize power 2 52 = half at *
  calc (nearest n 1).units * power 2 53 ≤ s * distance * power 2 53 := Nat.mul_le_mul_right _ hunits
    _ = 2 * s * distance * half := by rw [hdouble]; ring
    _ ≤ (2 * scaled + distance) * half := Nat.mul_le_mul_right _ hadded
    _ = 2 * scaled * half + distance * half := by ring
    _ ≤ 2 * scaled * half + scaled := Nat.add_le_add_left hdistance _
    _ = scaled * (power 2 53 + 1) := by rw [hdouble]; ring

/-- A quotient below `(2 ^ 54 - 1) * 2 ^ 970` is finite. -/
theorem isFinite_nearest {num den : Nat} (hden : 0 < den)
    (h : num * power 2 1074 < den * ((power 2 54 - 1) * power 2 2044)) :
    (nearest num den).isFinite = true := by
  obtain ⟨step, s, hrounds, hrank⟩ := exists_rounds num hden
  have hfiftyFour : power 2 54 = 18014398509481984 := rfl
  have hstep : step < 2046 := by
    -- a greater distance is needed only beyond the bound
    refine Nat.lt_of_not_le fun hge => ?_
    have hdistance := hrounds.distance_le.resolve_left (by omega)
    have hgreat : power 2 54 * power 2 2044 ≤ power 2 (step + 52) := by
      rw [← power_add]
      exact power_le_power Nat.two_pos (by omega)
    have hless : (power 2 54 - 1) * power 2 2044 ≤ power 2 (step + 52) :=
      Nat.le_trans (Nat.mul_le_mul_right _ (Nat.sub_le _ _)) hgreat
    exact Nat.not_le_of_lt h (Nat.le_trans (Nat.mul_le_mul_left den hless) hdistance)
  have hbelow := hrounds.le
  have hlast : step = 2045 → s < power 2 53 := by
    -- at the greatest distance, `2 ^ 53` times the distance is out of reach
    rintro rfl
    have hadded := hrounds.added_le
    have hdouble : power 2 2045 = power 2 2044 * 2 := power_succ 2 2044
    rw [hdouble] at hadded
    refine Nat.lt_of_mul_lt_mul_right (a := den * power 2 2044 * 4) ?_
    rw [power_fiftyThree]
    rw [hfiftyFour] at h
    generalize num * power 2 1074 = scaled at *
    generalize power 2 2044 = half at *
    have hbound : den * ((18014398509481984 - 1) * half)
        = 18014398509481983 * (den * half) := by ring
    rw [hbound] at h
    have hleft : 2 * s * (den * (half * 2)) = s * (den * half * 4) := by ring
    have hright : den * (half * 2) = 2 * (den * half) := by ring
    rw [hleft, hright] at hadded
    generalize den * half = distance at *
    omega
  have hfinite : step * power 2 52 + s < infiniteRank := by
    rw [infiniteRank]
    rw [power_fiftyThree] at hbelow hlast
    rw [power_fiftyTwo]
    omega
  rw [isFinite, hrank]
  exact decide_eq_true (Nat.lt_of_le_of_lt (Nat.min_le_left _ _) hfinite)

/-- **Products of rounded numbers.**  Rounding two numbers and their product does not lead beyond
    the finite numbers, if the product itself is at most `(2 ^ 54 - 5) * 2 ^ 970`. -/
theorem isFinite_times {a b : Nat} (ha : 0 < a) (hb : 0 < b)
    (h : a * b ≤ (power 2 54 - 5) * power 2 970) :
    ((nearest a 1).times (nearest b 1)).isFinite = true := by
  have hunits : 0 < power 2 1074 := power_pos Nat.two_pos 1074
  refine isFinite_nearest (Nat.mul_pos hunits hunits) ?_
  have hgrown := Nat.mul_le_mul (units_nearest_le ha) (units_nearest_le hb)
  have hsplit : power 2 2044 = power 2 970 * power 2 1074 := power_add 2 970 1074
  -- what two roundings add to the bound is less than the distance to what is not finite
  have hmargin : (power 2 54 - 5) * (power 2 53 + 1) * (power 2 53 + 1)
      < (power 2 54 - 1) * power 2 53 * power 2 53 := by decide
  have hscale : 0 < power 2 970 * power 2 1074 * power 2 1074 * power 2 1074 :=
    Nat.mul_pos (Nat.mul_pos (Nat.mul_pos (power_pos Nat.two_pos 970) hunits) hunits) hunits
  rw [hsplit]
  -- the powers must not be computed, and `ring` needs to know nothing about them
  generalize (nearest a 1).units = x at *
  generalize (nearest b 1).units = y at *
  generalize power 2 1074 = t at *
  generalize power 2 970 = r at *
  generalize power 2 53 = u at *
  refine Nat.lt_of_mul_lt_mul_right (a := u * u) ?_
  calc x * y * t * (u * u) = x * u * (y * u) * t := by ring
    _ ≤ a * t * (u + 1) * (b * t * (u + 1)) * t := Nat.mul_le_mul_right t hgrown
    _ = a * b * ((u + 1) * (u + 1) * (t * t * t)) := by ring
    _ ≤ (power 2 54 - 5) * r * ((u + 1) * (u + 1) * (t * t * t)) := Nat.mul_le_mul_right _ h
    _ = (power 2 54 - 5) * (u + 1) * (u + 1) * (r * t * t * t) := by ring
    _ < (power 2 54 - 1) * u * u * (r * t * t * t) := Nat.mul_lt_mul_of_pos_right hmargin hscale
    _ = t * t * ((power 2 54 - 1) * (r * t)) * (u * u) := by ring

end Magnitude

end D0L
