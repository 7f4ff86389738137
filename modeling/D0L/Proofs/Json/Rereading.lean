import D0L.Proofs.Json.Scaling

namespace D0L

/-!
# What numbers are read again as

A magnitude is written as its shortest decimal, whose digits all fit 64 bits, so the reader scales
just this decimal.  The number that it finds is the old one if this takes no rounding before the
last one, and otherwise as many ranks away as there are such roundings at most.

* `Literal.decimal` — the decimal that the parts of a number stand for.
* `Literal.value?_spelling` — the value of a literal whose digits fit is its scaled decimal.
* `Decimal.decimal_literal` — what the parts of a decimal stand for has its value.
* `Magnitude.exists_reread` — the number that is read in what has been written for a magnitude.
-/

open Json

namespace Literal

variable {l : Literal}

/-- The decimal that the parts of a number stand for. -/
def decimal (l : Literal) : Decimal where
  digits := ofDigits ((l.whole ++ l.fraction).map digitValue)
  exponent := l.exponent.getD 0 - l.fraction.length

/-- A number with a point or an exponent, and with digits that fit, has the value that its decimal
    is scaled to. -/
theorem value?_spelling (hparts : ¬ (l.fraction = [] ∧ l.exponent = none))
    (hfits : l.decimal.digits ≤ Numeral.maxWord) (negative : Bool) :
    (l.spelling negative).value? = (scale? l.decimal.digits l.decimal.exponent).map
      fun m => .float (.signed negative m) := by
  have hdigits : l.decimal.digits
      = appendDigits (appendDigits 0 (l.whole.map digitValue)) (l.fraction.map digitValue) := by
    rw [decimal, ofDigits, List.map_append, List.foldl_append]
    rfl
  -- the digits before the point are fewer, so they fit if all do
  have hwhole : appendDigits 0 (l.whole.map digitValue) ≤ Numeral.maxWord := by
    have hle := mul_power_le_appendDigits (appendDigits 0 (l.whole.map digitValue))
      (l.fraction.map digitValue)
    have hscale := power_pos (Nat.succ_pos 9) (l.fraction.map digitValue).length
    refine Nat.le_trans (Nat.le_mul_of_pos_right _ hscale) (Nat.le_trans hle ?_)
    rwa [← hdigits]
  have hexponent : ((0 : Nat) - ((l.fraction.map digitValue).length - (0 : Nat) : Int)
      + l.exponent.getD 0 : Int) = l.decimal.exponent := by
    have hself : l.decimal.exponent = l.exponent.getD 0 - l.fraction.length := rfl
    rw [hself, List.length_map]
    omega
  rw [hdigits] at hfits
  have hparts' : ¬ (l.fraction.map digitValue = [] ∧ l.exponent = none) :=
    fun h => hparts ⟨List.map_eq_nil_iff.1 h.1, h.2⟩
  simp only [Spelling.value?, spelling, absorb_of_le hwhole, absorb_of_le hfits]
  rw [if_neg fun h => hparts' h.2, hexponent, hdigits]

end Literal

namespace Decimal

variable {d : Decimal}

/-- Zeros in front of digits do not count. -/
theorem ofDigits_replicate_append (n : Nat) (t : Text) :
    ofDigits ((List.replicate n '0' ++ t).map digitValue) = ofDigits (t.map digitValue) := by
  induction n with
  | zero => rfl
  | succ n ih => exact ih

/-- Each zero behind digits is a factor of ten. -/
theorem ofDigits_append_replicate (t : Text) (n : Nat) :
    ofDigits ((t ++ List.replicate n '0').map digitValue)
      = ofDigits (t.map digitValue) * power 10 n := by
  induction n with
  | zero =>
    rw [List.replicate_zero, List.append_nil]
    exact (Nat.mul_one _).symm
  | succ n ih =>
    have hlast : ofDigits ((t ++ List.replicate (n + 1) '0').map digitValue)
        = 10 * ofDigits ((t ++ List.replicate n '0').map digitValue) := by
      rw [List.replicate_succ', ← List.append_assoc, List.map_append, ofDigits, List.foldl_append]
      rfl
    rw [hlast, ih, power_succ]
    ring

/-- What the parts of a decimal stand for: the decimal itself, or one with the digits up to the zero
    behind the point. -/
theorem decimal_literal (d : Decimal) :
    d.literal.decimal = d ∨
      (∃ k, d.exponent = .ofNat k ∧ (Numeral.write d.digits).length + k ≤ 16 ∧
        d.literal.decimal = ⟨d.digits * power 10 (k + 1), -1⟩) := by
  obtain ⟨digits, exponent⟩ := d
  have hself := Literal.ofDigits_write digits
  have hlength : 0 < (Numeral.write digits).length :=
    List.length_pos_of_ne_nil (Numeral.write_ne_nil digits)
  have hleading : (⟨digits, exponent⟩ : Decimal).leading
      = (Numeral.write digits).length - 1 + exponent := rfl
  rw [literal]
  simp only
  generalize (⟨digits, exponent⟩ : Decimal).leading = leading at *
  generalize Numeral.write digits = text at *
  by_cases hnear : -5 ≤ leading ∧ leading < 16
  · simp only [if_pos hnear]
    cases exponent with
    -- the written zero behind the point counts as a digit, and the exponent makes up for it
    | ofNat k =>
      right
      have hk : Int.ofNat k = (k : Int) := rfl
      refine ⟨k, rfl, by omega, ?_⟩
      have hzeros : text ++ List.replicate k '0' ++ ['0'] = text ++ List.replicate (k + 1) '0' := by
        rw [List.append_assoc, List.replicate_succ']
      rw [Literal.decimal, hzeros, ofDigits_append_replicate, hself]
      rfl
    -- here the digits are the same, and zeros in front of them add nothing
    | negSucc k =>
      left
      by_cases hplaces : k + 1 < text.length
      · simp only [if_pos hplaces, Literal.decimal, List.take_append_drop, hself, List.length_drop,
          Option.getD_none]
        congr 1
        omega
      · simp only [if_neg hplaces, Literal.decimal]
        rw [← List.append_assoc, show ['0'] ++ List.replicate (k + 1 - text.length) '0'
          = List.replicate (k + 1 - text.length + 1) '0' from rfl, ofDigits_replicate_append, hself,
          List.length_append, List.length_replicate, Option.getD_none]
        congr 1
        omega
  · left
    simp only [if_neg hnear, Literal.decimal, List.take_append_drop, hself, List.length_drop,
      Option.getD_some]
    congr 1
    omega

/-- A number is written with a point or with an exponent. -/
theorem literal_parts (d : Decimal) : ¬ (d.literal.fraction = [] ∧ d.literal.exponent = none) := by
  rintro ⟨hfraction, hexponent⟩
  by_cases hnear : -5 ≤ d.leading ∧ d.leading < 16
  · exact (literal_near hnear).2.1 hfraction
  · rw [literal, if_neg hnear] at hexponent
    exact absurd hexponent (by simp)

/-- A number with no more than `k` digits is below the power `k` of ten. -/
theorem lt_power_of_length {n k : Nat} (h : (Numeral.write n).length ≤ k) : n < power 10 k := by
  have hdigits : ∀ d ∈ (Numeral.write n).map digitValue, d < 10 :=
    lt_ten_of_mem_map fun c hc => Numeral.isDigit_of_mem_write hc
  have hlt := appendDigits_lt 0 hdigits
  rw [Nat.zero_add, Nat.one_mul, List.length_map] at hlt
  have hself : appendDigits 0 ((Numeral.write n).map digitValue) = n := Literal.ofDigits_write n
  rw [hself] at hlt
  exact Nat.lt_of_lt_of_le hlt (power_le_power (Nat.succ_pos 9) h)

end Decimal

namespace Magnitude

variable {m : Magnitude}

/-- The parts of a positive magnitude stand for a decimal with the value of the shortest one, whose
    digits fit 64 bits and whose exponent is not far out of range. -/
theorem decimal_literal_bounds (hm : 0 < m.rank) :
    0 < m.literal.decimal.digits ∧ m.literal.decimal.digits ≤ Numeral.maxWord ∧
      -324 ≤ m.literal.decimal.exponent ∧ m.literal.decimal.exponent ≤ 308 ∧
      m.literal.decimal.value = m.shortest.value := by
  have hpos := (identified_shortest m).digits_pos hm
  have hdigits := shortest_digits_lt hm
  obtain ⟨hlow, hhigh⟩ := shortest_exponent_bounds hm
  have hword : Numeral.maxWord = 18446744073709551615 := rfl
  have hbound : 10 * (power 2 54 + 2) = 180143985094819860 := rfl
  rw [literal_of_pos hm]
  -- the digits are the shortest ones, or those with zeros up to the point and one behind it
  rcases m.shortest.decimal_literal with hself | ⟨k, hk, hlength, hzeros⟩
  · rw [hself]
    exact ⟨hpos, by omega, hlow, hhigh, rfl⟩
  · -- the digits up to the zero behind the point are no more than 17
    rw [hzeros]
    have hfits : m.shortest.digits * power 10 (k + 1) ≤ power 10 17 := by
      have hlt : m.shortest.digits < power 10 (16 - k) := Decimal.lt_power_of_length (by omega)
      calc m.shortest.digits * power 10 (k + 1) ≤ power 10 (16 - k) * power 10 (k + 1) :=
            Nat.mul_le_mul_right _ hlt.le
        _ = power 10 17 := by
            rw [← power_add]
            exact congrArg (power 10) (by omega)
    have hseventeen : power 10 17 = 100000000000000000 := rfl
    have hscale := power_pos (Nat.succ_pos 9) (k + 1)
    refine ⟨Nat.mul_pos hpos hscale, by simp only; omega, by simp only; omega,
      by simp only; omega, ?_⟩
    have hshortest : m.shortest.value = m.shortest.digits * 10 ^ k := by
      rw [Decimal.value, hk, show (10 : ℚ) ^ Int.ofNat k = 10 ^ k from zpow_natCast 10 k]
    have hten : (10 : ℚ) ^ k * 10 / 10 = 10 ^ k := mul_div_cancel_right₀ _ (by norm_num)
    rw [hshortest, show (-1 : Int) = .negSucc 0 from rfl, Decimal.value_negSucc, Nat.cast_mul,
      cast_power, mul_div_assoc, zero_add, pow_one, pow_succ, hten]

/-- **Numbers that are read again.**  What has been written for a finite magnitude is read as a
    finite one, which is as many ranks away as its digits take roundings at most. -/
theorem exists_reread (hfinite : m.isFinite = true) (negative : Bool) :
    ∃ n : Magnitude, (m.literal.spelling negative).value? = some (.float (.signed negative n)) ∧
      n.isFinite = true ∧ n.rank ≤ m.rank + m.literal.decimal.roundings ∧
      m.rank ≤ n.rank + m.literal.decimal.roundings := by
  rcases Nat.eq_zero_or_pos m.rank with hzero | hpos
  · have hvalue : ∀ negative : Bool, (Literal.zero.spelling negative).value?
        = some (.float (.signed negative .zero)) := by decide +kernel
    rw [literal_of_zero hzero, hzero]
    exact ⟨.zero, hvalue negative, by decide, Nat.zero_le _, Nat.zero_le _⟩
  · obtain ⟨hdigits, hfits, hlow, hhigh, hsame⟩ := decimal_literal_bounds hpos
    have hparts : ¬ (m.literal.fraction = [] ∧ m.literal.exponent = none) := by
      rw [literal_of_pos hpos]
      exact m.shortest.literal_parts
    have hvalue := Literal.value?_spelling hparts hfits negative
    -- the number is not refused, so the decimal has been scaled
    have hsome := isSome_value?_literal hfinite negative
    rw [hvalue, Option.isSome_map] at hsome
    obtain ⟨n, hn⟩ := Option.isSome_iff_exists.1 hsome
    rw [hn] at hvalue
    obtain ⟨hreread, num, den, hden, rfl, hwithin⟩ :=
      Decimal.scales_of_scale? hdigits hfits hlow hhigh hn
    rw [hsame] at hwithin
    have hrounds := roundsTo_shortest hpos
    exact ⟨_, hvalue, hreread, hrounds.rank_nearest_le hden hwithin,
      hrounds.le_rank_nearest m.rank_le hden hwithin⟩

end Magnitude

end D0L
