import D0L.Binary64.Decimal
import D0L.Proofs.Binary64.Rounding
import Mathlib.Tactic.Ring

namespace D0L

/-!
# Shortest decimals lie between midpoints

The shortest decimal of a magnitude lies between the midpoints to the magnitudes below and above.
Cutting digits off it does not lead beyond the upper one, so what is left can be scaled again
without leaving the finite numbers, as long as the magnitude is not one of the two greatest.

* `Magnitude.Identified` — a decimal between the midpoints around a magnitude.
* `Magnitude.identified_shortest` — the shortest decimal is one.
* `Magnitude.Identified.cut_le` — its first digits, scaled, are not above the upper midpoint.
* `Magnitude.midpoint_le` — the upper midpoint of all magnitudes but the two greatest.
-/

namespace Magnitude

variable {m : Magnitude} {digits : Nat} {exponent : Int}

/-- A decimal between the midpoints around a magnitude, in units of `2 ^ -1075`. -/
structure Identified (m : Magnitude) (digits : Nat) (exponent : Int) : Prop where
  /-- It is not below the lower midpoint. -/
  ge : (unitsAt (m.rank - 1) + m.units) * power 10 (-exponent).toNat
    ≤ digits * (power 10 exponent.toNat * power 2 1075)
  /-- It is not above the upper midpoint. -/
  le : digits * (power 10 exponent.toNat * power 2 1075)
    ≤ (m.units + unitsAt (m.rank + 1)) * power 10 (-exponent).toNat

/-- Whether a multiple of a grid identifies a magnitude, from the midpoints. -/
def identifies (m : Magnitude) (low high multiple : Nat) : Bool :=
  (low < multiple && multiple < high)
    || (m.rank % 2 = 0 && (multiple = low || multiple = high))

/-- A multiple that identifies a magnitude lies between its midpoints, or on one of them. -/
theorem between_of_identifies {low high multiple : Nat} (horder : low ≤ high)
    (h : m.identifies low high multiple = true) : low ≤ multiple ∧ multiple ≤ high := by
  simp only [identifies, Bool.or_eq_true, Bool.and_eq_true, decide_eq_true_eq] at h
  omega

/-- The midpoints themselves identify even ranks only. -/
theorem even_of_identifies {low high multiple : Nat} (h : m.identifies low high multiple = true)
    (hmidpoint : multiple = low ∨ multiple = high) : m.rank % 2 = 0 := by
  simp only [identifies, Bool.or_eq_true, Bool.and_eq_true, decide_eq_true_eq] at h
  omega

/-- Of two candidates, the one that is taken has passed the test. -/
theorem test_of_candidate {t : Nat → Bool} {a b : Nat} {p : Int} {d : Decimal}
    (h : (if t a then some { digits := a, exponent := p }
      else if t b then some { digits := b, exponent := p } else none) = some d) :
    t d.digits = true ∧ d.exponent = p := by
  split at h
  · rename_i htest
    obtain rfl := Option.some.inj h
    exact ⟨htest, rfl⟩
  · split at h
    · rename_i htest
      obtain rfl := Option.some.inj h
      exact ⟨htest, rfl⟩
    · exact absurd h (by simp)

/-- The magnitude below has no greater value. -/
theorem unitsAt_below_le (m : Magnitude) : unitsAt (m.rank - 1) ≤ m.units :=
  unitsAt_le_unitsAt (Nat.sub_le _ _)

/-- The magnitude above has no smaller value. -/
theorem units_le_unitsAt_above (m : Magnitude) : m.units ≤ unitsAt (m.rank + 1) :=
  unitsAt_le_unitsAt (Nat.le_succ _)

/-- The decimal on a grid identifies the magnitude. -/
theorem identifies_of_onGrid? {p : Int} {d : Decimal} (h : m.onGrid? p = some d) :
    m.identifies ((unitsAt (m.rank - 1) + m.units) * power 10 (-p).toNat)
      ((m.units + unitsAt (m.rank + 1)) * power 10 (-p).toNat)
      (d.digits * (power 10 p.toNat * power 2 1075)) = true ∧ d.exponent = p := by
  simp only [onGrid?] at h
  -- the unit must not be computed
  generalize power 2 1075 = unit at *
  exact test_of_candidate
    (t := fun k => m.identifies ((unitsAt (m.rank - 1) + m.units) * power 10 (-p).toNat)
      ((m.units + unitsAt (m.rank + 1)) * power 10 (-p).toNat) (k * (power 10 p.toNat * unit))) h

/-- The decimal on a grid is between the midpoints. -/
theorem identified_of_onGrid? {p : Int} {d : Decimal} (h : m.onGrid? p = some d) :
    Identified m d.digits d.exponent := by
  have hbelow := unitsAt_below_le m
  have habove := units_le_unitsAt_above m
  have horder : (unitsAt (m.rank - 1) + m.units) * power 10 (-p).toNat
      ≤ (m.units + unitsAt (m.rank + 1)) * power 10 (-p).toNat :=
    Nat.mul_le_mul_right _ (by omega)
  obtain ⟨htest, rfl⟩ := identifies_of_onGrid? h
  obtain ⟨hge, hle⟩ := between_of_identifies horder htest
  exact ⟨hge, hle⟩

/-- The magnitude itself, as a decimal of all its digits, is between the midpoints. -/
theorem identified_exact (m : Magnitude) {n : Nat} (hn : n + 1 = 1075)
    (hscale : (-exponent).toNat = n) (hpower : exponent.toNat = 0) :
    Identified m (m.units * power 5 n) exponent := by
  have hexact : m.units * power 5 n * (power 10 0 * power 2 (n + 1))
      = (m.units + m.units) * power 10 n := by
    have hone : power 10 0 = 1 := rfl
    rw [hone, power_ten, power_succ]
    ring
  have hbelow := unitsAt_below_le m
  have habove := units_le_unitsAt_above m
  refine ⟨?_, ?_⟩
  · rw [hscale, hpower, ← hn, hexact]
    exact Nat.mul_le_mul_right _ (Nat.add_le_add_right hbelow _)
  · rw [hscale, hpower, ← hn, hexact]
    exact Nat.mul_le_mul_right _ (Nat.add_le_add_left habove _)

/-- **The shortest decimal is between the midpoints.** -/
theorem identified_shortest (m : Magnitude) :
    Identified m m.shortest.digits m.shortest.exponent := by
  rw [shortest]
  cases hgrid : grids.findSome? m.onGrid? with
  | some d =>
    obtain ⟨p, _, hp⟩ := List.exists_of_findSome?_eq_some hgrid
    exact identified_of_onGrid? hp
  | none =>
    simp only [Option.getD_none]
    apply identified_exact <;> rfl

/-- The decimal of a positive number has a digit that is not zero, since zero is nearer to zero. -/
theorem Identified.digits_pos (h : Identified m digits exponent) (hm : 0 < m.rank) :
    0 < digits := by
  refine Nat.pos_of_ne_zero fun hzero => ?_
  have hge := h.ge
  rw [hzero, Nat.zero_mul] at hge
  have hlow : 0 < unitsAt (m.rank - 1) + m.units :=
    Nat.lt_of_lt_of_le (unitsAt_pos hm) (Nat.le_add_left _ _)
  exact absurd hge (Nat.not_le_of_lt (Nat.mul_pos hlow (power_pos (Nat.succ_pos 9) _)))

/-- The first digits of a decimal, scaled by a power of ten that is not negative, are not above the
    upper midpoint. -/
theorem Identified.cut_le (h : Identified m digits exponent) {cut unread k : Nat}
    (hcut : cut * power 10 unread ≤ digits) (hk : exponent + unread = k) :
    cut * power 10 k * power 2 1075 ≤ m.units + unitsAt (m.rank + 1) := by
  have hle := h.le
  generalize m.units + unitsAt (m.rank + 1) = high at *
  generalize power 2 1075 = unit at *
  cases exponent with
  | ofNat e =>
    -- the digits that are left out are zeros in the product
    have hk' : (e : Int) + unread = k := hk
    have hsum : k = unread + e := by omega
    have hscale : power 10 (-Int.ofNat e).toNat = 1 := by
      rw [show (-Int.ofNat e).toNat = 0 by simp]
      rfl
    have hpower : (Int.ofNat e).toNat = e := rfl
    rw [hscale, hpower, Nat.mul_one] at hle
    calc cut * power 10 k * unit = cut * power 10 unread * (power 10 e * unit) := by
          rw [hsum, power_add]
          ring
      _ ≤ digits * (power 10 e * unit) := Nat.mul_le_mul_right _ hcut
      _ ≤ high := hle
  | negSucc e =>
    -- some of the digits that are left out stand behind the point
    have hsum : unread = k + (e + 1) := by omega
    have hscale : (-Int.negSucc e).toNat = e + 1 := rfl
    have hpower : power 10 (Int.negSucc e).toNat = 1 := rfl
    rw [hscale, hpower, Nat.one_mul] at hle
    refine Nat.le_of_mul_le_mul_right (?_ : _ * power 10 (e + 1) ≤ _)
      (power_pos (Nat.succ_pos 9) (e + 1))
    calc cut * power 10 k * unit * power 10 (e + 1) = cut * power 10 unread * unit := by
          rw [hsum, power_add 10 k]
          ring
      _ ≤ digits * unit := Nat.mul_le_mul_right _ hcut
      _ ≤ high * power 10 (e + 1) := hle

/-- The upper midpoint of all magnitudes but the two greatest. -/
theorem midpoint_le (hm : m.rank + 2 < infiniteRank) :
    m.units + unitsAt (m.rank + 1) ≤ (power 2 54 - 5) * power 2 970 * power 2 1075 := by
  have hinfinite : infiniteRank = 2045 * power 2 52 + power 2 53 := by decide
  have hunits : m.units ≤ unitsAt (2045 * power 2 52 + (power 2 53 - 3)) :=
    unitsAt_le_unitsAt (by rw [power_fiftyThree] at *; omega)
  have habove : unitsAt (m.rank + 1) ≤ unitsAt (2045 * power 2 52 + (power 2 53 - 2)) :=
    unitsAt_le_unitsAt (by rw [power_fiftyThree] at *; omega)
  rw [unitsAt_step (Nat.sub_le _ _) (.inr (by decide))] at hunits habove
  have hsplit : power 2 2045 = power 2 970 * power 2 1075 := power_add 2 970 1075
  have hsum : power 2 53 - 3 + (power 2 53 - 2) = power 2 54 - 5 := by decide
  calc m.units + unitsAt (m.rank + 1)
      ≤ (power 2 53 - 3) * power 2 2045 + (power 2 53 - 2) * power 2 2045 :=
    Nat.add_le_add hunits habove
    _ = (power 2 54 - 5) * power 2 970 * power 2 1075 := by
      rw [← Nat.add_mul, hsum, hsplit, Nat.mul_assoc]

end Magnitude

end D0L
