import D0L.Proofs.Binary64.Roundings
import D0L.Proofs.Binary64.Shortest

namespace D0L

/-!
# How many digits a shortest decimal has

A grid that is finer than the distance to the magnitude below has a multiple that identifies the
magnitude, and the shortest decimal stands on the coarsest grid that has one.  So the grid before
it is not that fine, which bounds the digits; and a grid that is finer than all distances bounds the
exponent.

* `Magnitude.exists_gap` — the distance to the magnitude below, and the midpoint above.
* `Magnitude.isSome_onGrid?` — fine grids have a decimal.
* `Magnitude.exists_shortest` — where the shortest decimal is found.
* `Magnitude.shortest_exponent_bounds`, `Magnitude.shortest_digits_lt` — its exponent and digits.
* `Magnitude.roundsTo_shortest` — it is rounded to the magnitude.
-/

namespace Magnitude

variable {m : Magnitude} {p : Int}

/-! ### Fine grids -/

/-- The distance to the magnitude below is a power of two, and the magnitude and the next one are
    not far from it. -/
theorem exists_gap (hm : 0 < m.rank) :
    ∃ step, unitsAt (m.rank - 1) + power 2 step = m.units ∧ m.units < unitsAt (m.rank + 1) ∧
      m.units + unitsAt (m.rank + 1) ≤ (power 2 54 + 2) * power 2 step ∧ step ≤ 2045 := by
  obtain ⟨step, s, hrank, hs, hnormal⟩ := exists_step (m.rank - 1)
  have hself : m.rank = step * power 2 52 + (s + 1) := by omega
  have hdouble : power 2 54 = 2 * power 2 53 := rfl
  have hunit := power_pos Nat.two_pos step
  refine ⟨step, ?_⟩
  have hstep : step ≤ 2045 := by
    have hle := m.rank_le
    rw [infiniteRank] at hle
    rw [power_fiftyTwo] at hle hself hnormal
    omega
  have hnormal' : step = 0 ∨ power 2 52 ≤ s + 1 := hnormal.imp_right Nat.le_succ_of_le
  rw [units, hrank, hself, unitsAt_step (Nat.le_of_lt hs) hnormal,
    unitsAt_step (Nat.succ_le_of_lt hs) hnormal']
  by_cases hlast : s + 1 = power 2 53
  · -- the magnitude is the first one at the double distance
    have hnext : step * power 2 52 + (s + 1) + 1 = (step + 1) * power 2 52 + (power 2 52 + 1) := by
      rw [power_fiftyThree] at hlast
      rw [power_fiftyTwo]
      omega
    rw [hnext, unitsAt_step (by decide) (.inr (Nat.le_succ _)), hdouble, power_succ 2 step]
    rw [power_fiftyThree] at *
    rw [power_fiftyTwo, show s = 9007199254740991 by omega]
    generalize power 2 step = unit at *
    refine ⟨?_, ?_, ?_, hstep⟩ <;> omega
  · -- the magnitude, the one below and the next one are all at one distance
    have hnext : s + 1 + 1 ≤ power 2 53 := Nat.lt_of_le_of_ne hs hlast
    rw [Nat.add_assoc _ (s + 1), unitsAt_step hnext (hnormal'.imp_right Nat.le_succ_of_le)]
    generalize power 2 step = unit at *
    refine ⟨(Nat.succ_mul s unit).symm,
      Nat.mul_lt_mul_of_pos_right (Nat.lt_succ_self _) hunit, ?_, hstep⟩
    rw [← Nat.add_mul]
    exact Nat.mul_le_mul_right _ (by omega)

/-- If a candidate passes the test, there is a decimal: it is tried unless another one is taken. -/
theorem isSome_candidate {t : Nat → Bool} {a b c : Nat} (hc : t c = true) :
    (if t a then some { digits := a, exponent := p }
      else if t (if a = c then b else c) then
        some { digits := if a = c then b else c, exponent := p }
      else none : Option Decimal).isSome = true := by
  by_cases ha : a = c
  · rw [ha, if_pos hc]
    rfl
  · rw [if_neg ha, if_pos hc]
    split <;> rfl

/-- A grid that is no coarser than the distance to the magnitude below has a decimal. -/
theorem isSome_onGrid? {step : Nat} (hgap : unitsAt (m.rank - 1) + power 2 step = m.units)
    (habove : m.units < unitsAt (m.rank + 1))
    (hfine : power 10 p.toNat * power 2 1075 ≤ power 2 step * power 10 (-p).toNat) :
    (m.onGrid? p).isSome = true := by
  have hgrid : 0 < power 10 p.toNat * power 2 1075 :=
    Nat.mul_pos (power_pos (Nat.succ_pos 9) _) (power_pos Nat.two_pos _)
  have hscale := power_pos (Nat.succ_pos 9) (-p).toNat
  simp only [onGrid?]
  generalize power 10 p.toNat * power 2 1075 = grid at *
  generalize power 10 (-p).toNat = scale at *
  have hbelow : 2 * m.units * scale / grid * grid ≤ 2 * m.units * scale :=
    Nat.div_mul_le_self _ _
  have hnext : 2 * m.units * scale < (2 * m.units * scale / grid + 1) * grid :=
    (Nat.div_lt_iff_lt_mul hgrid).1 (Nat.lt_succ_self _)
  -- the multiple below the value identifies it
  have hidentifies : m.identifies ((unitsAt (m.rank - 1) + m.units) * scale)
      ((m.units + unitsAt (m.rank + 1)) * scale) (2 * m.units * scale / grid * grid) = true := by
    have hhigh : 2 * m.units * scale < (m.units + unitsAt (m.rank + 1)) * scale :=
      Nat.mul_lt_mul_of_pos_right (by omega) hscale
    have hlow : (unitsAt (m.rank - 1) + m.units) * scale + power 2 step * scale
        = 2 * m.units * scale := by
      rw [← Nat.add_mul]
      congr 1
      omega
    rw [Nat.add_mul, Nat.one_mul] at hnext
    simp only [identifies, Bool.or_eq_true, Bool.and_eq_true, decide_eq_true_eq]
    left
    omega
  exact isSome_candidate
    (t := fun k => m.identifies ((unitsAt (m.rank - 1) + m.units) * scale)
      ((m.units + unitsAt (m.rank + 1)) * scale) (k * grid)) hidentifies

/-! ### The coarsest grid -/

/-- The first grid on which there is something. -/
theorem exists_of_findSome?_grids {α : Type} {f : Int → Option α} {a : α}
    (h : grids.findSome? f = some a) :
    ∃ i : Nat, f (308 - i) = some a ∧ ∀ j < i, f (308 - j) = none := by
  obtain ⟨before, q, after, hgrids, hq, hbefore⟩ := List.findSome?_eq_some_iff.1 h
  -- the grids are numbered from the coarsest on
  have hget {j : Nat} (hj : j < 640) : grids[j]? = some (308 - (j : Int)) := by
    rw [grids, List.getElem?_map, List.getElem?_range hj]
    rfl
  have hlength : before.length < 640 := by
    have hlength := congrArg List.length hgrids
    rw [grids, List.length_map, List.length_range, List.length_append, List.length_cons] at hlength
    omega
  refine ⟨before.length, ?_, fun j hj => hbefore _ (List.mem_of_getElem? (i := j) ?_)⟩
  · have hself := hget hlength
    rw [hgrids, List.getElem?_append_right (Nat.le_refl _), Nat.sub_self, List.getElem?_cons_zero]
      at hself
    rw [← Option.some.inj hself]
    exact hq
  · have hother := hget (Nat.lt_trans hj hlength)
    rwa [hgrids, List.getElem?_append_left hj] at hother

/-- The shortest decimal is found on a grid that is not finer than `10 ^ -324`, and there is none on
    a coarser grid. -/
theorem exists_shortest (hm : 0 < m.rank) :
    ∃ i : Nat, i ≤ 632 ∧ m.onGrid? (308 - i) = some m.shortest ∧
      ∀ j < i, m.onGrid? (308 - j) = none := by
  obtain ⟨step, hgap, habove, -, -⟩ := exists_gap hm
  -- a grid that is finer than every gap has a decimal, so the search does not fail
  have hfinest : (m.onGrid? (308 - (632 : Nat))).isSome = true := by
    refine isSome_onGrid? hgap habove ?_
    have hfine : power 10 (308 - ((632 : Nat) : Int)).toNat * power 2 1075
        ≤ power 10 (-(308 - ((632 : Nat) : Int))).toNat := by decide +kernel
    exact Nat.le_trans hfine (Nat.le_mul_of_pos_left _ (power_pos Nat.two_pos step))
  rw [shortest]
  cases hgrid : grids.findSome? m.onGrid? with
  | some d =>
    obtain ⟨i, hi, hbefore⟩ := exists_of_findSome?_grids hgrid
    -- and it ends there at the latest
    refine ⟨i, Nat.le_of_not_lt fun hlt => ?_, hi, hbefore⟩
    rw [hbefore 632 hlt] at hfinest
    exact absurd hfinest (by decide)
  | none =>
    have hmem : (308 - ((632 : Nat) : Int)) ∈ grids := by decide +kernel
    rw [List.findSome?_eq_none_iff.1 hgrid _ hmem] at hfinest
    exact absurd hfinest (by decide)

/-- The exponent of a shortest decimal. -/
theorem shortest_exponent_bounds (hm : 0 < m.rank) :
    -324 ≤ m.shortest.exponent ∧ m.shortest.exponent ≤ 308 := by
  obtain ⟨i, hi, hgrid, -⟩ := exists_shortest hm
  rw [(identifies_of_onGrid? hgrid).2]
  omega

/-- The grid before that of the shortest decimal is coarser than the distance to the magnitude
    below. -/
theorem gap_lt_of_shortest (hm : 0 < m.rank) {step : Nat}
    (hgap : unitsAt (m.rank - 1) + power 2 step = m.units) (habove : m.units < unitsAt (m.rank + 1))
    (hstep : step ≤ 2045) :
    power 2 step * power 10 (-(m.shortest.exponent + 1)).toNat
      < power 10 (m.shortest.exponent + 1).toNat * power 2 1075 := by
  obtain ⟨i, -, hgrid, hbefore⟩ := exists_shortest hm
  rw [(identifies_of_onGrid? hgrid).2]
  cases i with
  | zero =>
    -- on the coarsest grid of all there is nothing to compare, since no gap is so wide
    have hgreat : power 2 970 < power 10 309 := by decide +kernel
    have hle : power 2 step * power 10 0 ≤ power 2 970 * power 2 1075 := by
      rw [← power_add, show power 10 0 = 1 from rfl, Nat.mul_one]
      exact power_le_power Nat.two_pos hstep
    exact Nat.lt_of_le_of_lt hle (Nat.mul_lt_mul_of_pos_right hgreat (power_pos Nat.two_pos 1075))
  | succ i =>
    -- the grid before has no decimal, so it is coarser than the gap
    have hprevious : (308 - ((i + 1 : Nat) : Int) + 1) = 308 - (i : Int) := by omega
    rw [hprevious]
    refine Nat.lt_of_not_le fun hfine => ?_
    have hsome := isSome_onGrid? hgap habove hfine
    rw [hbefore i (Nat.lt_succ_self i)] at hsome
    exact absurd hsome (by decide)

/-- **How many digits.**  A shortest decimal has no more digits than `10 * (2 ^ 54 + 2)`. -/
theorem shortest_digits_lt (hm : 0 < m.rank) :
    m.shortest.digits < 10 * (power 2 54 + 2) := by
  obtain ⟨step, hgap, habove, hhigh, hstep⟩ := exists_gap hm
  have hcoarse := gap_lt_of_shortest hm hgap habove hstep
  have hle := (identified_shortest m).le
  have hbound : 0 < power 2 54 + 2 := Nat.succ_pos _
  -- the powers are too great to be computed, and only their order counts
  generalize m.shortest.digits = digits at *
  generalize m.units + unitsAt (m.rank + 1) = high at *
  generalize power 2 step = gap at *
  generalize power 2 1075 = unit at *
  generalize power 2 54 + 2 = bound at *
  generalize m.shortest.exponent = exponent at *
  cases exponent with
  | ofNat k =>
    have hnegated : (-Int.ofNat k).toNat = 0 := by simp
    have hnext : (-(Int.ofNat k + 1)).toNat = 0 := by omega
    rw [hnegated] at hle
    rw [hnext] at hcoarse
    refine Nat.lt_of_mul_lt_mul_right (a := power 10 k * unit) ?_
    calc digits * (power 10 k * unit) ≤ high * power 10 0 := hle
      _ ≤ bound * gap * power 10 0 := Nat.mul_le_mul_right _ hhigh
      _ = bound * (gap * power 10 0) := Nat.mul_assoc _ _ _
      _ < bound * (power 10 (k + 1) * unit) := Nat.mul_lt_mul_of_pos_left hcoarse hbound
      _ = 10 * bound * (power 10 k * unit) := by
          rw [power_succ]
          ring
  | negSucc k =>
    have hnext : (-(Int.negSucc k + 1)).toNat = k := by omega
    have hpower : (Int.negSucc k + 1).toNat = 0 := by omega
    rw [hnext, hpower] at hcoarse
    refine Nat.lt_of_mul_lt_mul_right (a := power 10 0 * unit) ?_
    calc digits * (power 10 0 * unit) ≤ high * power 10 (k + 1) := hle
      _ ≤ bound * gap * power 10 (k + 1) := Nat.mul_le_mul_right _ hhigh
      _ = 10 * bound * (gap * power 10 k) := by
          rw [power_succ]
          ring
      _ < 10 * bound * (power 10 0 * unit) :=
          Nat.mul_lt_mul_of_pos_left hcoarse (Nat.mul_pos (by decide) hbound)

end Magnitude

/-! ### The value of a decimal -/

/-- A power as a rational number. -/
theorem cast_power (n : Nat) : ((power 10 n : Nat) : ℚ) = 10 ^ n := Nat.cast_pow 10 n

/-- The value of a decimal. -/
def Decimal.value (d : Decimal) : ℚ := d.digits * 10 ^ d.exponent

namespace Decimal

/-- A decimal whose exponent is not negative is a whole number. -/
theorem value_ofNat (digits k : Nat) :
    (⟨digits, .ofNat k⟩ : Decimal).value = digits * 10 ^ k := by
  rw [value, show (10 : ℚ) ^ Int.ofNat k = 10 ^ k from zpow_natCast 10 k]

/-- A decimal with a negative exponent is a fraction. -/
theorem value_negSucc (digits k : Nat) :
    (⟨digits, .negSucc k⟩ : Decimal).value = digits / 10 ^ (k + 1) := by
  rw [value, show (10 : ℚ) ^ Int.negSucc k = (10 ^ (k + 1))⁻¹ from zpow_negSucc 10 k,
    ← div_eq_mul_inv]

/-- The value of a decimal as a quotient of integers. -/
theorem value_eq (d : Decimal) :
    d.value = ((d.digits * power 10 d.exponent.toNat : Nat) : ℚ)
      / (power 10 (-d.exponent).toNat : Nat) := by
  obtain ⟨digits, exponent⟩ := d
  rw [Nat.cast_mul, cast_power, cast_power]
  cases exponent with
  | ofNat k =>
    have hnegated : (-Int.ofNat k).toNat = 0 := by simp
    rw [value_ofNat, hnegated, pow_zero, div_one]
    rfl
  | negSucc k =>
    rw [value_negSucc, show (Int.negSucc k).toNat = 0 from rfl, pow_zero, mul_one]
    rfl

end Decimal

namespace Magnitude

/-- **Shortest decimals are rounded back.**  The shortest decimal of a magnitude lies between the
    midpoints around it, and at one of them only if its rank is even. -/
theorem roundsTo_shortest {m : Magnitude} (hm : 0 < m.rank) :
    RoundsTo m.rank m.shortest.value := by
  have hscale : (0 : ℚ) < (power 10 (-m.shortest.exponent).toNat : Nat) :=
    Nat.cast_pos.2 (power_pos (Nat.succ_pos 9) _)
  obtain ⟨i, -, hgrid, -⟩ := exists_shortest hm
  obtain ⟨htest, hexponent⟩ := identifies_of_onGrid? hgrid
  rw [← hexponent] at htest
  obtain ⟨hge, hle⟩ := identified_shortest m
  have hlow : twiceMidpoint (m.rank - 1) = unitsAt (m.rank - 1) + m.units := by
    rw [twiceMidpoint, Nat.sub_add_cancel hm, units]
  have hhigh : twiceMidpoint m.rank = m.units + unitsAt (m.rank + 1) := rfl
  have hdouble : power 2 1075 = power 2 1074 * 2 := power_succ 2 1074
  -- the value, in units and without the divisor
  have hvalue : 2 * (m.shortest.value * (power 2 1074 : Nat))
        * (power 10 (-m.shortest.exponent).toNat : Nat)
      = (m.shortest.digits * (power 10 m.shortest.exponent.toNat * power 2 1075) : Nat) := by
    rw [Decimal.value_eq, mul_comm, ← RoundsTo.cast_scaled (power_pos (Nat.succ_pos 9) _), hdouble]
    have hfactors : ∀ a b unit : Nat, 2 * (a * b * unit) = a * (b * (unit * 2)) := by
      intro a b unit
      ring
    exact congrArg Nat.cast (hfactors _ _ _)
  refine ⟨hm, ?_, ?_, ?_⟩
  · refine le_of_mul_le_mul_right ?_ hscale
    rw [hvalue, hlow]
    exact_mod_cast hge
  · refine le_of_mul_le_mul_right ?_ hscale
    rw [hvalue, hhigh]
    exact_mod_cast hle
  · intro hmidpoint
    refine even_of_identifies htest ?_
    rw [← hlow, ← hhigh]
    refine hmidpoint.imp (fun heq => ?_) fun heq => ?_
    · rw [heq] at hvalue
      exact_mod_cast hvalue.symm
    · rw [heq] at hvalue
      exact_mod_cast hvalue.symm

end Magnitude

end D0L
