import D0L.Proofs.Binary64.Shortest
import D0L.Proofs.Json.Literals

namespace D0L

/-!
# Every finite number is read again

The reader of numbers takes as many digits as fit 64 bits, and scales what they make up by a power
of ten in steps that are rounded one by one; it refuses what is not finite then.  This file proves
that it never refuses what has been written for a finite number.

* `absorb_bounds`, `absorb_of_le` — what is read of some digits.
* `isSome_scale?_of_neg`, `isSome_scale?_of_le` — scaling down always has a result, and scaling up
  has one that is far enough from what is not finite.
* `isSome_value?_of_point`, `isSome_value?_of_exponent` — the two ways in which a number is written.
* `Magnitude.literal`, `Magnitude.isSome_value?_literal` — all finite magnitudes.
* `Json.Reader.exists_reads_number`, `Json.Reader.number_null` — reading what has been written for
  a number, finite or not.
-/

open Json

/-! ### Digits that fit 64 bits -/

/-- A number with digits appended to it. -/
def appendDigits (n : Nat) (digits : List Nat) : Nat := digits.foldl (fun n d => 10 * n + d) n

theorem appendDigits_cons (n d : Nat) (digits : List Nat) :
    appendDigits n (d :: digits) = appendDigits (10 * n + d) digits := rfl

/-- Digits that are left out make a number no greater. -/
theorem mul_power_le_appendDigits (n : Nat) (digits : List Nat) :
    n * power 10 digits.length ≤ appendDigits n digits := by
  induction digits generalizing n with
  | nil => exact Nat.le_of_eq (Nat.mul_one n)
  | cons d digits ih =>
    rw [appendDigits_cons, List.length_cons, power_succ]
    calc n * (power 10 digits.length * 10) = 10 * n * power 10 digits.length := by ring
      _ ≤ (10 * n + d) * power 10 digits.length := Nat.mul_le_mul_right _ (Nat.le_add_right _ _)
      _ ≤ appendDigits (10 * n + d) digits := ih _

/-- Digits add less than one to the last place before them. -/
theorem appendDigits_lt (n : Nat) {digits : List Nat} (h : ∀ d ∈ digits, d < 10) :
    appendDigits n digits < (n + 1) * power 10 digits.length := by
  induction digits generalizing n with
  | nil => exact Nat.lt_of_lt_of_eq (Nat.lt_succ_self n) (Nat.mul_one _).symm
  | cons d digits ih =>
    have hd := h d List.mem_cons_self
    rw [appendDigits_cons, List.length_cons, power_succ]
    calc appendDigits (10 * n + d) digits
        < (10 * n + d + 1) * power 10 digits.length :=
          ih _ fun e he => h e (List.mem_cons_of_mem _ he)
      _ ≤ (10 * n + 10) * power 10 digits.length := Nat.mul_le_mul_right _ (by omega)
      _ = (n + 1) * (power 10 digits.length * 10) := by ring

/-- Digits that fit are all read. -/
theorem absorb_of_le {n : Nat} {digits : List Nat} (h : appendDigits n digits ≤ Numeral.maxWord) :
    absorb n digits = (appendDigits n digits, 0) := by
  induction digits generalizing n with
  | nil => rfl
  | cons d digits ih =>
    rw [appendDigits_cons] at h
    -- numbers only grow when digits are appended, so if all digits fit, each one does
    have hfits : 10 * n + d ≤ Numeral.maxWord := by
      have hle := mul_power_le_appendDigits (10 * n + d) digits
      have hone : 10 * n + d ≤ (10 * n + d) * power 10 digits.length :=
        Nat.le_mul_of_pos_right _ (power_pos (Nat.succ_pos 9) _)
      omega
    rw [absorb, if_pos hfits, ih h, appendDigits_cons]

/-- What is read of digits: the number does not shrink, and with zeros for the digits that are left
    it is not greater than with these digits. -/
theorem absorb_bounds (n : Nat) (digits : List Nat) :
    n ≤ (absorb n digits).1 ∧
      (absorb n digits).1 * power 10 (absorb n digits).2 ≤ appendDigits n digits ∧
      (absorb n digits).2 ≤ digits.length := by
  induction digits generalizing n with
  | nil => exact ⟨Nat.le_refl n, Nat.le_of_eq (Nat.mul_one n), Nat.le_refl 0⟩
  | cons d digits ih =>
    rw [absorb]
    split
    · obtain ⟨hgrows, hle, hleft⟩ := ih (10 * n + d)
      exact ⟨by omega, hle, Nat.le_succ_of_le hleft⟩
    · exact ⟨Nat.le_refl n, mul_power_le_appendDigits n (d :: digits), Nat.le_refl _⟩

/-! ### Scaling -/

/-- A number that is scaled down by some powers of ten stays finite. -/
theorem isSome_scale?_negSucc (significand k : Nat) :
    (scale? significand (.negSucc k)).isSome = true := by
  simp only [scale?]
  split
  · rfl
  · split <;> rfl

/-- A number with a negative exponent stays finite. -/
theorem isSome_scale?_of_neg (significand : Nat) {exponent : Int} (h : exponent < 0) :
    (scale? significand exponent).isSome = true := by
  obtain ⟨k, rfl⟩ := Int.eq_negSucc_of_lt_zero h
  exact isSome_scale?_negSucc significand k

/-- A number is scaled up if the result is far enough from what is not finite. -/
theorem isSome_scale?_of_le {significand k : Nat} (hpos : 0 < significand)
    (h : significand * power 10 k ≤ (power 2 54 - 5) * power 2 970) :
    (scale? significand (.ofNat k)).isSome = true := by
  have hk : k ≤ greatestPower := by
    -- the next power of ten is above the bound by itself
    refine Nat.le_of_not_lt fun hlt => ?_
    have hten : power 10 309 ≤ power 10 k := power_le_power (Nat.succ_pos 9) hlt
    have hone : power 10 k ≤ significand * power 10 k := Nat.le_mul_of_pos_left _ hpos
    have hgreat : (power 2 54 - 5) * power 2 970 < power 10 309 := by decide +kernel
    exact Nat.not_le_of_lt hgreat (Nat.le_trans hten (Nat.le_trans hone h))
  have hfinite := Magnitude.isFinite_times hpos (power_pos (Nat.succ_pos 9) k) h
  simp only [scale?, if_pos hk, hfinite]
  rfl

/-! ### Values of spellings -/

variable {s : Spelling} {whole : Nat}

/-- At most sixteen digits leave room in 64 bits for one digit more. -/
theorem fits_of_length {digits : List Nat} (hdigits : ∀ d ∈ digits, d < 10)
    (hlength : digits.length ≤ 16) {d : Nat} (hd : d < 10) :
    10 * appendDigits 0 digits + d ≤ Numeral.maxWord := by
  have hsmall : appendDigits 0 digits < power 10 16 := by
    have hlt := appendDigits_lt 0 hdigits
    rw [Nat.zero_add, Nat.one_mul] at hlt
    exact Nat.lt_of_lt_of_le hlt (power_le_power (Nat.succ_pos 9) hlength)
  have hten : power 10 16 = 10000000000000000 := rfl
  have hword : Numeral.maxWord = 18446744073709551615 := rfl
  omega

/-- So such digits are all absorbed. -/
theorem absorb_of_length {digits : List Nat} (hdigits : ∀ d ∈ digits, d < 10)
    (hlength : digits.length ≤ 16) : absorb 0 digits = (appendDigits 0 digits, 0) := by
  have hfits := fits_of_length hdigits hlength (Nat.succ_pos 9)
  exact absorb_of_le (by omega)

/-- A spelling has a value if what is read of its digits can be scaled. -/
theorem isSome_value? (hwhole : absorb 0 s.whole = (whole, 0))
    (hparts : ¬ (s.fraction = [] ∧ s.exponent = none))
    (hscale : (scale? (absorb whole s.fraction).1
      ((0 : Nat) - (s.fraction.length - (absorb whole s.fraction).2 : Int)
        + s.exponent.getD 0)).isSome = true) :
    s.value?.isSome = true := by
  simp only [Spelling.value?, hwhole]
  rw [if_neg fun h => hparts h.2, Option.isSome_map]
  exact hscale

/-- A spelling with few digits before the point, and some behind it, has a value. -/
theorem isSome_value?_of_point (hdigits : ∀ d ∈ s.whole, d < 10) (hlength : s.whole.length ≤ 16)
    (hfraction : s.fraction ≠ []) (hfirst : ∀ d ∈ s.fraction, d < 10)
    (hexponent : s.exponent = none) : s.value?.isSome = true := by
  have hwhole := absorb_of_length hdigits hlength
  refine isSome_value? hwhole (fun h => hfraction h.1) (isSome_scale?_of_neg _ ?_)
  -- the first digit behind the point still fits, so there is a place behind the point
  obtain ⟨d, more, hcons⟩ := List.exists_cons_of_ne_nil hfraction
  have hd : d < 10 := hfirst d (by rw [hcons]; exact List.mem_cons_self)
  have hfits := fits_of_length hdigits hlength hd
  have hleft := (absorb_bounds (10 * appendDigits 0 s.whole + d) more).2.2
  rw [hexponent, hcons, absorb, if_pos hfits, List.length_cons, Option.getD_none]
  omega

/-! ### Values of shortest decimals -/

/-- The digits of a text stand for less than ten. -/
theorem lt_ten_of_mem_map {t : Text} (h : ∀ c ∈ t, c.isDigit = true) :
    ∀ d ∈ t.map digitValue, d < 10 := by
  intro d hd
  obtain ⟨c, hc, rfl⟩ := List.mem_map.1 hd
  exact Literal.digitValue_lt (h c hc)

/-- One digit is read as it is. -/
theorem absorb_digit {d : Nat} (h : d < 10) : absorb 0 [d] = (d, 0) := by
  have hone : appendDigits 0 [d] = d := Nat.zero_add d
  have hword : Numeral.maxWord = 18446744073709551615 := rfl
  have hfits : appendDigits 0 [d] ≤ Numeral.maxWord := by omega
  rw [absorb_of_le hfits, hone]

/-- The digits behind the first one, appended to it, make up the number again. -/
theorem appendDigits_write {n : Nat} {c : Char} {more : Text} (h : Numeral.write n = c :: more) :
    appendDigits (digitValue c) (more.map digitValue) = n := by
  have hvalue := Literal.ofDigits_write n
  rw [h, ofDigits, List.map_cons, List.foldl_cons, Nat.mul_zero, Nat.zero_add] at hvalue
  exact hvalue

/-- A decimal that is written with an exponent has a value, unless it belongs to one of the two
    greatest magnitudes. -/
theorem isSome_value?_of_exponent {m : Magnitude} {d : Decimal}
    (hd : m.Identified d.digits d.exponent) (hm : 0 < m.rank) (hrank : m.rank + 2 < infiniteRank)
    (hfar : ¬ (-5 ≤ d.leading ∧ d.leading < 16)) (negative : Bool) :
    (d.literal.spelling negative).value?.isSome = true := by
  obtain ⟨c, more, hcons⟩ := List.exists_cons_of_ne_nil (Numeral.write_ne_nil d.digits)
  have hhead := Numeral.head?_write_ne_zero (hd.digits_pos hm)
  have hliteral : d.literal = ⟨(Numeral.write d.digits).take 1, (Numeral.write d.digits).drop 1,
      some d.leading⟩ := if_neg hfar
  have hleading : d.leading = (Numeral.write d.digits).length - 1 + d.exponent := rfl
  rw [hcons] at hhead hliteral hleading
  rw [hliteral]
  have hc : c.isDigit = true :=
    Numeral.isDigit_of_mem_write (by rw [hcons]; exact List.mem_cons_self)
  have hpos : 0 < digitValue c := Literal.digitValue_pos hc fun hzero => hhead (congrArg some hzero)
  refine isSome_value? (absorb_digit (Literal.digitValue_lt hc))
    (fun h => absurd h.2 (by simp [Literal.spelling])) ?_
  obtain ⟨hgrows, hcut, hleft⟩ := absorb_bounds (digitValue c) (more.map digitValue)
  rw [appendDigits_write hcons] at hcut
  rw [List.length_map] at hleft
  -- the power of ten that is left to scale by
  have hexponent : ((0 : Nat) - (((more.map digitValue).length : Int)
      - (absorb (digitValue c) (more.map digitValue)).2) + d.leading : Int)
        = d.exponent + (absorb (digitValue c) (more.map digitValue)).2 := by
    rw [hleading, List.length_map, List.length_cons]
    omega
  show (scale? (absorb (digitValue c) (more.map digitValue)).1
    ((0 : Nat) - (((more.map digitValue).length : Int)
      - (absorb (digitValue c) (more.map digitValue)).2) + d.leading)).isSome = true
  rw [hexponent]
  -- scaling up is bounded by the upper midpoint, since digits have only been left out
  cases hk : d.exponent + ((absorb (digitValue c) (more.map digitValue)).2 : Int) with
  | negSucc k => exact isSome_scale?_negSucc _ k
  | ofNat k =>
    have hscaled := Nat.le_trans (hd.cut_le hcut hk) (Magnitude.midpoint_le hrank)
    exact isSome_scale?_of_le (Nat.lt_of_lt_of_le hpos hgrows)
      (Nat.le_of_mul_le_mul_right hscaled (power_pos Nat.two_pos 1075))

/-- Where a decimal is written without an exponent, it has few digits before the point, and some
    behind it. -/
theorem literal_near {d : Decimal} (h : -5 ≤ d.leading ∧ d.leading < 16) :
    d.literal.whole.length ≤ 16 ∧ d.literal.fraction ≠ [] ∧ d.literal.exponent = none := by
  have hne := Numeral.write_ne_nil d.digits
  have hleading : d.leading = (Numeral.write d.digits).length - 1 + d.exponent := rfl
  rw [Decimal.literal]
  generalize Numeral.write d.digits = digits at *
  simp only [if_pos h]
  cases hexponent : d.exponent with
  -- the zeros behind the digits are counted by the exponent, so the leading place bounds them all
  | ofNat k =>
    rw [hexponent] at hleading
    have hk : (Int.ofNat k) = (k : Int) := rfl
    refine ⟨?_, List.cons_ne_nil _ _, rfl⟩
    rw [List.length_append, List.length_replicate]
    omega
  -- fewer digits than places: the point stands before all of them
  | negSucc k =>
    rw [hexponent] at hleading
    by_cases hplaces : k + 1 < digits.length
    · simp only [if_pos hplaces]
      refine ⟨?_, ?_, trivial⟩
      · rw [List.length_take]
        omega
      · rw [Ne, List.drop_eq_nil_iff]
        omega
    · simp only [if_neg hplaces]
      exact ⟨by decide, List.append_ne_nil_of_right_ne_nil _ hne, trivial⟩

namespace Magnitude

/-- The parts of a magnitude as it is written. -/
def literal (m : Magnitude) : Literal :=
  if m.rank = 0 then .zero else m.shortest.literal

theorem literal_of_zero {m : Magnitude} (h : m.rank = 0) : m.literal = .zero := if_pos h

theorem literal_of_pos {m : Magnitude} (h : 0 < m.rank) : m.literal = m.shortest.literal :=
  if_neg (Nat.ne_of_gt h)

/-- A number is written as a literal that the grammar of numbers allows. -/
theorem literal_wellFormed (m : Magnitude) : m.literal.WellFormed := by
  rcases Nat.eq_zero_or_pos m.rank with hzero | hpos
  · rw [literal_of_zero hzero]
    exact Literal.zero_wellFormed
  · rw [literal_of_pos hpos]
    exact Decimal.literal_wellFormed ((identified_shortest m).digits_pos hpos)

/-- A finite number is written as its sign and its literal. -/
theorem writeNumber_eq {m : Magnitude} (h : m.isFinite = true) (negative : Bool) :
    writeNumber (.signed negative m) = Binary64.signText negative ++ m.literal.text := by
  rw [writeNumber, if_pos h, literal]
  split
  · rfl
  · rw [Decimal.writeDecimal_eq]

/-- The two greatest magnitudes have a value, which is computed here. -/
theorem isSome_value?_greatest : ∀ negative : Bool,
    ((literal ⟨infiniteRank - 1, by decide⟩).spelling negative).value?.isSome = true ∧
      ((literal ⟨infiniteRank - 2, by decide⟩).spelling negative).value?.isSome = true := by
  decide +kernel

/-- **What is written for a finite magnitude has a value.** -/
theorem isSome_value?_literal {m : Magnitude} (h : m.isFinite = true) (negative : Bool) :
    (m.literal.spelling negative).value?.isSome = true := by
  have hwell := m.literal_wellFormed
  have hpoint : m.literal.whole.length ≤ 16 ∧ m.literal.fraction ≠ [] ∧ m.literal.exponent = none →
      (m.literal.spelling negative).value?.isSome = true := by
    rintro ⟨hlength, hfraction, hexponent⟩
    refine isSome_value?_of_point (lt_ten_of_mem_map hwell.whole_digits) ?_ ?_
      (lt_ten_of_mem_map hwell.fraction_digits) hexponent
    · rwa [Literal.spelling, List.length_map]
    · exact fun hnil => hfraction (List.map_eq_nil_iff.1 hnil)
  -- with a point and few digits there is a value in any case; an exponent asks for bounds
  rcases Nat.eq_zero_or_pos m.rank with hzero | hpos
  · exact hpoint (by rw [literal_of_zero hzero]; decide)
  by_cases hnear : -5 ≤ m.shortest.leading ∧ m.shortest.leading < 16
  · exact hpoint (by rw [literal_of_pos hpos]; exact literal_near hnear)
  by_cases hrank : m.rank + 2 < infiniteRank
  · rw [literal_of_pos hpos]
    exact isSome_value?_of_exponent (identified_shortest m) hpos hrank hnear negative
  · -- the two magnitudes for which the general bound is not enough
    have hfinite : m.rank < infiniteRank := of_decide_eq_true h
    obtain ⟨hfirst, hsecond⟩ := isSome_value?_greatest negative
    obtain ⟨rank, hle⟩ := m
    have hcases : rank = infiniteRank - 1 ∨ rank = infiniteRank - 2 := by
      simp only at hrank hfinite
      omega
    rcases hcases with rfl | rfl
    · exact hfirst
    · exact hsecond

end Magnitude

namespace Json.Reader

/-! ### Reading numbers -/

variable {ε : Type} {rest : List UInt8}

/-- A number is read as it is written, if it has a value. -/
theorem reads_literal {negative : Bool} {l : Literal} (hl : l.WellFormed) {v : Number}
    (hv : (l.spelling negative).value? = some v) :
    Reads (number : Reader ε Binary64) (Binary64.signText negative ++ l.text) [] v.toBinary64 := by
  have hspelled : SpellsNumber (l.spelling negative)
      (Text.toBytes (Binary64.signText negative ++ l.text)) := by
    refine ⟨_, hl.spellsUnsigned negative, ?_⟩
    cases negative with
    | true => rfl
    | false => rfl
  exact fun _ hrest => run_number_spelled ⟨_, v, hspelled, hv, rfl⟩ hrest

/-- What is no finite number is written as `null`, which is no number. -/
theorem number_null (rest : List UInt8) :
    (number : Reader ε Binary64).run (Text.toBytes "null".toList ++ rest)
      = ⟨[], .error (.unfit (.kind .null .number))⟩ := by
  have hfound : (found 'n'.toUInt8 : Reader ε Found).run (Text.toBytes "null".toList ++ rest)
      = ⟨[], .ok (.null, rest)⟩ := rfl
  exact run_wanting_of_misfit (b := 'n'.toUInt8) (by decide) hfound rfl

/-- **Every finite number is read again.** -/
theorem exists_reads_number {x : Binary64} (hx : x.isFinite = true) :
    ∃ y, Reads (number : Reader ε Binary64) (writeNumber x) [] y := by
  cases x with
  | nan => exact absurd hx (by decide)
  | signed negative m =>
    obtain ⟨v, hv⟩ := Option.isSome_iff_exists.1 (Magnitude.isSome_value?_literal hx negative)
    rw [Magnitude.writeNumber_eq hx]
    exact ⟨_, reads_literal m.literal_wellFormed hv⟩

/-- What is no finite number is written as `null`. -/
theorem writeNumber_of_not_finite {x : Binary64} (hx : x.isFinite = false) :
    writeNumber x = "null".toList := by
  cases x with
  | nan => rfl
  | signed negative m =>
    have hm : ¬ m.isFinite = true := by
      rw [show m.isFinite = false from hx]
      decide
    exact if_neg hm

end Json.Reader

end D0L
