import D0L.Proofs.Json.SpelledNumbers

namespace D0L

/-!
# Numbers are spelled as they are written

A written number is a literal: digits before the point, digits behind it, and an exponent.  This
file takes the text of a decimal apart into these parts and proves that it is one of their
spellings.

* `Literal`, `Literal.text` — the parts of a number, and the text that they make up.
* `Literal.WellFormed` — digits only, without a leading zero.
* `Decimal.literal` — the parts of a decimal; `Decimal.writeDecimal_eq` says that its text is
  theirs.
* `Literal.WellFormed.spellsUnsigned` — the text of a well-formed literal spells its parts.
-/

open Json

/-- A number that is written without a sign. -/
structure Literal where
  /-- The digits before the point. -/
  whole : Text
  /-- The digits behind the point. -/
  fraction : Text
  /-- The exponent, if there is one. -/
  exponent : Option Int
deriving DecidableEq

/-- What a digit stands for. -/
def digitValue (c : Char) : Nat := c.toNat - '0'.toNat

namespace Literal

/-- The point with digits behind it, if there are any. -/
def fractionText : Text → Text
  | [] => []
  | c :: rest => '.' :: c :: rest

/-- The letter `e` with a signed number behind it, if there is one. -/
def exponentText : Option Int → Text
  | none => []
  | some e => 'e' :: (if e < 0 then '-' else '+') :: Numeral.write e.natAbs

/-- The text of a literal. -/
def text (l : Literal) : Text := l.whole ++ (fractionText l.fraction ++ exponentText l.exponent)

/-- What the reader makes of a literal, after a minus sign or without one. -/
def spelling (negative : Bool) (l : Literal) : Spelling where
  negative := negative
  whole := l.whole.map digitValue
  fraction := l.fraction.map digitValue
  exponent := l.exponent

/-- A literal of digits, with no zero in front of other digits. -/
structure WellFormed (l : Literal) : Prop where
  /-- There are digits before the point. -/
  whole_ne_nil : l.whole ≠ []
  /-- They are digits. -/
  whole_digits : ∀ c ∈ l.whole, c.isDigit = true
  /-- They do not start with a zero, unless zero is all there is. -/
  no_leading_zero : l.whole.head? = some '0' → l.whole = ['0']
  /-- Behind the point, there are digits too. -/
  fraction_digits : ∀ c ∈ l.fraction, c.isDigit = true

/-! ### Digits -/

variable {c : Char}

theorem bounds_of_isDigit (h : c.isDigit = true) : 48 ≤ c.toNat ∧ c.toNat ≤ 57 :=
  Char.isDigit_iff_toNat.1 h

/-- A digit stands for less than ten. -/
theorem digitValue_lt (h : c.isDigit = true) : digitValue c < 10 := by
  have hbounds := bounds_of_isDigit h
  have hzero : '0'.toNat = 48 := rfl
  rw [digitValue]
  omega

/-- A digit stands for more than nothing unless it is zero. -/
theorem digitValue_pos (h : c.isDigit = true) (hc : c ≠ '0') : 0 < digitValue c := by
  refine Nat.sub_pos_of_lt (Nat.lt_of_le_of_ne (bounds_of_isDigit h).1 fun heq => ?_)
  exact hc (Char.toNat_inj.1 heq.symm)

/-- A digit is one byte, with the same number. -/
theorem toNat_toUInt8_of_isDigit (h : c.isDigit = true) : c.toUInt8.toNat = c.toNat := by
  have hbounds := bounds_of_isDigit h
  exact Nat.mod_eq_of_lt (show c.toNat < 256 by omega)

/-- The byte of a digit is the byte of a digit. -/
theorem isDigitByte_of_isDigit (h : c.isDigit = true) : isDigitByte c.toUInt8 = true := by
  rw [isDigitByte, Bool.and_eq_true, decide_eq_true_eq, decide_eq_true_eq, UInt8.le_iff_toNat_le,
    UInt8.le_iff_toNat_le, toNat_toUInt8_of_isDigit h]
  exact bounds_of_isDigit h

/-- Zeros that fill up a number are digits. -/
theorem isDigit_of_mem_replicate {n : Nat} (h : c ∈ List.replicate n '0') : c.isDigit = true := by
  rw [List.eq_of_mem_replicate h]
  decide

/-! ### Runs of digits -/

variable {t : Text} {rest : List UInt8}

/-- Digits are characters of ASCII, so each is one byte. -/
theorem toBytes_of_digits (h : ∀ c ∈ t, c.isDigit = true) :
    Text.toBytes t = t.map Char.toUInt8 := by
  refine Text.toBytes_of_ascii fun c hc => ?_
  have hbounds := bounds_of_isDigit (h c hc)
  omega

/-- Digits are spelled by their text. -/
theorem spellsDigits_toBytes (hne : t ≠ []) (h : ∀ c ∈ t, c.isDigit = true) :
    SpellsDigits (t.map digitValue) (Text.toBytes t) := by
  rw [toBytes_of_digits h]
  refine ⟨by simpa using hne, fun b hb => ?_, ?_⟩
  · obtain ⟨c, hc, rfl⟩ := List.mem_map.1 hb
    exact isDigitByte_of_isDigit (h c hc)
  · rw [List.map_map]
    refine List.map_congr_left fun c hc => ?_
    show c.toNat - '0'.toNat = c.toUInt8.toNat - '0'.toNat
    rw [toNat_toUInt8_of_isDigit (h c hc)]

/-- Both ways to read digits from left to right give the same number. -/
theorem ofDigits_map_digitValue (t : Text) :
    ofDigits (t.map digitValue) = Nat.ofDigitChars 10 t 0 :=
  List.foldl_map

/-- The digits of a number are read as the number. -/
theorem ofDigits_write (n : Nat) : ofDigits ((Numeral.write n).map digitValue) = n := by
  rw [ofDigits_map_digitValue, Numeral.write, Nat.ofDigitChars_toDigits (by decide) (by decide)]

/-! ### The parts of a literal -/

/-- The digits behind a point, if there are any, are spelled with the point. -/
theorem spellsFraction_fractionText (h : ∀ c ∈ t, c.isDigit = true) :
    SpellsFraction (t.map digitValue) (Text.toBytes (fractionText t)) := by
  cases t with
  | nil => exact .none
  | cons c t => exact .point (spellsDigits_toBytes (List.cons_ne_nil c t) h)

/-- The letter `e`, a sign and digits are an exponent. -/
theorem spellsExponent_signed (negative : Bool) (hne : t ≠ []) (h : ∀ c ∈ t, c.isDigit = true) :
    SpellsExponent (some (if negative then -(ofDigits (t.map digitValue) : Int)
        else ofDigits (t.map digitValue)))
      (Text.toBytes ('e' :: (if negative then '-' else '+') :: t)) := by
  have hdigits := spellsDigits_toBytes hne h
  cases negative with
  | false =>
    show SpellsExponent _ ('e'.toUInt8 :: (['+'.toUInt8] ++ Text.toBytes t))
    exact .mark (.inl rfl) .plus hdigits
  | true =>
    show SpellsExponent _ ('e'.toUInt8 :: (['-'.toUInt8] ++ Text.toBytes t))
    exact .mark (.inl rfl) .minus hdigits

/-- An exponent is spelled with its sign, if there is one. -/
theorem spellsExponent_exponentText (e : Option Int) :
    SpellsExponent e (Text.toBytes (exponentText e)) := by
  cases e with
  | none => exact .none
  | some e =>
    have hsigned := spellsExponent_signed (decide (e < 0)) (Numeral.write_ne_nil e.natAbs)
      fun c hc => Numeral.isDigit_of_mem_write hc
    rw [ofDigits_write] at hsigned
    simp only [decide_eq_true_eq] at hsigned
    have hvalue : (if e < 0 then -(e.natAbs : Int) else e.natAbs) = e := by
      split <;> omega
    rwa [hvalue] at hsigned

/-! ### Whole literals -/

namespace WellFormed

variable {l : Literal}

/-- The digits before the point are spelled as they are. -/
theorem spellsDigits (h : l.WellFormed) :
    SpellsDigits (l.whole.map digitValue) (Text.toBytes l.whole) :=
  spellsDigits_toBytes h.whole_ne_nil h.whole_digits

/-- The digits behind the point are spelled as they are, with the point in front. -/
theorem spellsFraction (h : l.WellFormed) :
    SpellsFraction (l.fraction.map digitValue) (Text.toBytes (fractionText l.fraction)) :=
  spellsFraction_fractionText h.fraction_digits

/-- Only zero starts with the digit zero. -/
theorem eq_zero_of_head? (h : l.WellFormed) (hzero : (l.whole.map digitValue).head? = some 0) :
    l.whole.map digitValue = [0] := by
  obtain ⟨c, more, hwhole⟩ := List.exists_cons_of_ne_nil h.whole_ne_nil
  have hdigit : c.isDigit = true := h.whole_digits c (by simp [hwhole])
  have hc : c = '0' := by
    by_contra hc
    rw [hwhole, List.map_cons, List.head?_cons, Option.some.injEq] at hzero
    exact (digitValue_pos hdigit hc).ne' hzero
  rw [h.no_leading_zero (by rw [hwhole, hc, List.head?_cons])]
  rfl

/-- **A literal is spelled as it is written.** -/
theorem spellsUnsigned (h : l.WellFormed) (negative : Bool) :
    SpellsUnsigned (l.spelling negative) (Text.toBytes l.text) :=
  ⟨_, _, _, h.spellsDigits, h.eq_zero_of_head?, h.spellsFraction,
    spellsExponent_exponentText l.exponent, by rw [text, Text.toBytes_append, Text.toBytes_append]⟩

end WellFormed

/-- Zero as it is written. -/
def zero : Literal where
  whole := ['0']
  fraction := ['0']
  exponent := none

theorem zero_wellFormed : zero.WellFormed where
  whole_ne_nil := List.cons_ne_nil _ _
  whole_digits _ hc := isDigit_of_mem_replicate (n := 1) hc
  no_leading_zero _ := rfl
  fraction_digits _ hc := isDigit_of_mem_replicate (n := 1) hc

end Literal

namespace Decimal

/-! ### Literals of decimals -/

/-- The parts of a decimal as it is written: with all its digits around the point while the first
    one stands near it, and with an exponent otherwise. -/
def literal (d : Decimal) : Literal :=
  let digits := Numeral.write d.digits
  if -5 ≤ d.leading ∧ d.leading < 16 then
    match d.exponent with
    | .ofNat k => { whole := digits ++ List.replicate k '0', fraction := ['0'], exponent := none }
    | .negSucc k =>
      let places := k + 1
      if places < digits.length then
        { whole := digits.take (digits.length - places)
          fraction := digits.drop (digits.length - places)
          exponent := none }
      else
        { whole := ['0']
          fraction := List.replicate (places - digits.length) '0' ++ digits
          exponent := none }
  else { whole := digits.take 1, fraction := digits.drop 1, exponent := some d.leading }

/-- Only digits need a point in front of them. -/
theorem fractionText_of_ne_nil {t : Text} (h : t ≠ []) : Literal.fractionText t = '.' :: t := by
  obtain ⟨c, t, rfl⟩ := List.exists_cons_of_ne_nil h
  rfl

/-- The scientific form is a literal of one digit before the point, with an exponent. -/
theorem scientific_eq (d : Decimal) :
    d.scientific = (Numeral.write d.digits).take 1
      ++ (Literal.fractionText ((Numeral.write d.digits).drop 1)
        ++ Literal.exponentText (some d.leading)) := by
  obtain ⟨c, more, hdigits⟩ := List.exists_cons_of_ne_nil (Numeral.write_ne_nil d.digits)
  rw [scientific, hdigits]
  cases more with
  | nil => rfl
  | cons e more => rfl

/-- **The text of a decimal is that of its parts.** -/
theorem writeDecimal_eq (d : Decimal) : writeDecimal d = d.literal.text := by
  rw [writeDecimal, literal]
  by_cases hnear : -5 ≤ d.leading ∧ d.leading < 16
  · simp only [if_pos hnear, positional]
    -- with powers of ten to spare there are zeros behind the digits; with too few there is a point
    cases d.exponent with
    | ofNat k =>
      have hnonneg : (0 : Int) ≤ Int.ofNat k := Int.natCast_nonneg k
      simp only [if_pos hnonneg]
      rfl
    | negSucc k =>
      have hnegative : ¬ (0 : Int) ≤ Int.negSucc k := by omega
      simp only [if_neg hnegative, List.append_nil]
      by_cases hplaces : k + 1 < (Numeral.write d.digits).length
      · -- the point stands among the digits
        have hne : (Numeral.write d.digits).drop ((Numeral.write d.digits).length - (k + 1))
            ≠ [] := by
          rw [Ne, List.drop_eq_nil_iff]
          omega
        simp only [if_pos hplaces, Literal.text, fractionText_of_ne_nil hne]
        rw [Literal.exponentText, List.append_nil]
      · -- the point stands before them, with zeros between
        have hne : List.replicate (k + 1 - (Numeral.write d.digits).length) '0'
            ++ Numeral.write d.digits ≠ [] :=
          List.append_ne_nil_of_right_ne_nil _ (Numeral.write_ne_nil d.digits)
        simp only [if_neg hplaces, Literal.text, fractionText_of_ne_nil hne]
        rw [Literal.exponentText, List.append_nil]
        rfl
  · simp only [if_neg hnear, scientific_eq]
    rfl

/-- Digits that do not start with a zero, with the point behind some of them. -/
theorem wellFormed_of_point {digits : Text} (hne : digits ≠ [])
    (hdigits : ∀ c ∈ digits, c.isDigit = true) (hhead : digits.head? ≠ some '0') {n : Nat}
    (hn : 0 < n) (exponent : Option Int) :
    Literal.WellFormed ⟨digits.take n, digits.drop n, exponent⟩ where
  whole_ne_nil := by
    rw [Ne, List.take_eq_nil_iff]
    rintro (hzero | hnil)
    · omega
    · exact hne hnil
  whole_digits c hc := hdigits c (List.mem_of_mem_take hc)
  no_leading_zero hzero := by
    rw [List.head?_take, if_neg (Nat.ne_of_gt hn)] at hzero
    exact absurd hzero hhead
  fraction_digits c hc := hdigits c (List.mem_of_mem_drop hc)

/-- The parts of a positive decimal are well-formed. -/
theorem literal_wellFormed {d : Decimal} (h : 0 < d.digits) : d.literal.WellFormed := by
  have hne := Numeral.write_ne_nil d.digits
  have hdigits : ∀ c ∈ Numeral.write d.digits, c.isDigit = true :=
    fun c hc => Numeral.isDigit_of_mem_write hc
  have hhead := Numeral.head?_write_ne_zero h
  rw [literal]
  -- from here on only the three facts about the digits matter
  generalize Numeral.write d.digits = digits at *
  by_cases hnear : -5 ≤ d.leading ∧ d.leading < 16
  · simp only [if_pos hnear]
    cases d.exponent with
    | ofNat k =>
      refine ⟨List.append_ne_nil_of_left_ne_nil hne _, ?_, ?_, fun c hc =>
        Literal.isDigit_of_mem_replicate (n := 1) hc⟩
      · intro c hc
        rcases List.mem_append.1 hc with hc | hc
        · exact hdigits c hc
        · exact Literal.isDigit_of_mem_replicate hc
      · intro hzero
        obtain ⟨c, more, rfl⟩ := List.exists_cons_of_ne_nil hne
        exact absurd hzero hhead
    | negSucc k =>
      by_cases hplaces : k + 1 < digits.length
      · simp only [if_pos hplaces]
        exact wellFormed_of_point hne hdigits hhead (Nat.sub_pos_of_lt hplaces) none
      · simp only [if_neg hplaces]
        refine ⟨List.cons_ne_nil _ _, fun c hc =>
          Literal.isDigit_of_mem_replicate (n := 1) hc, fun _ => rfl, ?_⟩
        intro c hc
        rcases List.mem_append.1 hc with hc | hc
        · exact Literal.isDigit_of_mem_replicate hc
        · exact hdigits c hc
  · -- the scientific form, with the point behind the first digit
    simp only [if_neg hnear]
    exact wellFormed_of_point hne hdigits hhead Nat.one_pos (some d.leading)

end Decimal

end D0L
