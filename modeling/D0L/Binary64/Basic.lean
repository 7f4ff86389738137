import D0L.Text.Numeral

namespace D0L

/-!
# Double precision numbers

A number of the IEEE 754 format binary64: a sign with a magnitude, or not a number. An angle is
such a number. The magnitudes are the non-negative numbers of the format, in ascending order: zero
has rank `0`, the least positive number rank `1`, and infinity comes last. The rank is also the bit
pattern without its sign, so nothing has to be packed or unpacked. All arithmetic is exact, on
natural numbers, and is rounded once.

* `Magnitude` — a rank up to that of infinity.
* `unitsAt` — the value of a rank, in units of `2 ^ -1074`, the least positive number.
* `Magnitude.nearest` — the magnitude nearest to a quotient.
* `Magnitude.times`, `Magnitude.dividedBy` — rounded product and quotient.
* `Binary64.bits` — the bit pattern.
* `Binary64.same` — equality of values: the two zeros are equal, and nothing equals `nan`.
-/

/-! ### Magnitudes -/

/-- The rank of infinity, one more than the greatest finite rank. -/
def infiniteRank : Nat := 2047 * power 2 52

/-- A non-negative number of double precision, or infinity. -/
structure Magnitude where
  /-- The number of smaller magnitudes. -/
  rank : Nat
  /-- Nothing comes after infinity. -/
  rank_le : rank ≤ infiniteRank := by decide
deriving DecidableEq

/-- The value of a rank in units of `2 ^ -1074`. The first `2 ^ 53` ranks are one unit apart, and
    from there on the distance doubles every `2 ^ 52` ranks. -/
def unitsAt (rank : Nat) : Nat :=
  let step := rank / power 2 52 - 1
  (rank - step * power 2 52) * power 2 step

/-- The integer nearest to `num / den`, the even one of two that are equally near. -/
def roundHalfEven (num den : Nat) : Nat :=
  let floor := num / den
  let rest := num % den
  if 2 * rest < den then floor
  else if den < 2 * rest then floor + 1
  else floor + floor % 2

namespace Magnitude

/-- The number zero. -/
def zero : Magnitude where
  rank := 0

/-- Infinity. -/
def infinity : Magnitude where
  rank := infiniteRank

instance : Inhabited Magnitude where
  default := zero

/-- Whether the magnitude is a number. -/
def isFinite (m : Magnitude) : Bool := m.rank < infiniteRank

/-- The value in units of `2 ^ -1074`. -/
def units (m : Magnitude) : Nat := unitsAt m.rank

/-- The magnitude nearest to `num / den` for a positive `den`; of two that are equally near, the
    one with an even rank. Quotients beyond the finite numbers give infinity. -/
def nearest (num den : Nat) : Magnitude where
  rank :=
    let scaled := num * power 2 1074
    let step := (scaled / den).log2 - 52
    min (step * power 2 52 + roundHalfEven scaled (den * power 2 step)) infiniteRank
  rank_le := Nat.min_le_right _ _

/-- The rounded product of two finite magnitudes. -/
def times (m n : Magnitude) : Magnitude := nearest (m.units * n.units) (power 2 1074 * power 2 1074)

/-- The rounded quotient of two finite magnitudes, the second one positive. -/
def dividedBy (m n : Magnitude) : Magnitude := nearest m.units n.units

/-! ### Examples at the seams of the format -/

example : (nearest 1 1).rank = 0x3FF0000000000000 := by decide +kernel

example : (nearest (power 2 53 + 1) 1).rank = (nearest (power 2 53) 1).rank := by decide +kernel

example : (nearest 1 (power 2 1075)).rank = 0 ∧ (nearest 3 (power 2 1076)).rank = 1 := by
  decide +kernel

example : (nearest (power 2 1024 - power 2 970) 1).isFinite = false := by decide +kernel

example : (nearest (power 2 1024 - power 2 970 - 1) 1).rank = infiniteRank - 1 := by decide +kernel

end Magnitude

/-! ### Numbers with a sign -/

/-- A number of the format binary64. -/
inductive Binary64 where
  /-- No number. -/
  | nan
  /-- A magnitude with a sign; zero has two signs. -/
  | signed (negative : Bool) (magnitude : Magnitude)
deriving DecidableEq

namespace Binary64

/-- The number zero, without a minus sign. -/
def zero : Binary64 := .signed false .zero

/-- The natural number `n`, rounded if it has more than 53 bits. -/
def ofNat (n : Nat) : Binary64 := .signed false (.nearest n 1)

instance : Inhabited Binary64 where
  default := zero

/-- The bit pattern, with the sign in front of the rank; all that is no number has one pattern. -/
def bits : Binary64 → Nat
  | .nan => infiniteRank + power 2 51
  | .signed negative m => (if negative then power 2 63 else 0) + m.rank

/-- Whether the number is neither `nan` nor infinite. -/
def isFinite : Binary64 → Bool
  | .nan => false
  | .signed _ m => m.isFinite

/-- Whether two numbers have the same value. The two zeros do, and `nan` has none. -/
def same : Binary64 → Binary64 → Bool
  | .signed b m, .signed c n => (m.rank = 0 && n.rank = 0) || (b == c && m = n)
  | _, _ => false

end Binary64

end D0L
