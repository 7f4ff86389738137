import D0L.Proofs.Json.Cuts
import D0L.Proofs.Json.Rereading

namespace D0L

/-!
# Numbers that are cut off

A number that is cut off behind a sign, a point or the letter `e` ends too early.  Cut off behind a
digit it is a number again, with fewer digits; it is never beyond the finite numbers, since a
smaller exponent is left of a great one.

* `Literal.Moderate` — what keeps the cuts of a literal within the finite numbers.
* `Literal.spelling_of_isCutOf` — what the reader finds in a cut of a literal.
* `Json.Reader.starves_number` — the reader of numbers, on what has been written for one.
-/

open Json

namespace Literal

variable {l : Literal} {t : Text} {cut : List UInt8}

/-- A cut of some digits has the first ones of them. -/
theorem exists_of_isCutOf_digits (h : ∀ c ∈ t, c.isDigit = true)
    (hcut : IsCutOf cut (Text.toBytes t)) :
    ∃ first last, t = first ++ last ∧ last ≠ [] ∧ cut = Text.toBytes first := by
  obtain ⟨b, left, hbytes⟩ := hcut
  rw [toBytes_of_digits h] at hbytes
  obtain ⟨first, last, rfl, hfirst, hlast⟩ := List.map_eq_append_iff.1 hbytes
  refine ⟨first, last, rfl, ?_, ?_⟩
  · rintro rfl
    exact absurd hlast (by simp)
  · rw [← hfirst, toBytes_of_digits fun c hc => h c (List.mem_append_left _ hc)]

/-- A literal with moderate parts: few digits before the point, digits that fit 64 bits, and an
    exponent of three digits at most. -/
structure Moderate (l : Literal) : Prop where
  /-- There are few digits before the point. -/
  whole_length : l.whole.length ≤ 16
  /-- All digits fit 64 bits. -/
  fits : l.decimal.digits ≤ Numeral.maxWord
  /-- With an exponent, the digits are not all zero. -/
  pos : l.exponent ≠ none → 0 < l.decimal.digits
  /-- The exponent is moderate. -/
  exponent_le : ∀ e, l.exponent = some e → e.natAbs ≤ 400

/-! ### Values of the parts that are left -/

/-- Digits around the point, or before it only, have a value if there are few before it. -/
theorem isSome_value?_of_noExponent {s : Spelling} (hdigits : ∀ d ∈ s.whole, d < 10)
    (hlength : s.whole.length ≤ 16) (hfraction : ∀ d ∈ s.fraction, d < 10)
    (hexponent : s.exponent = none) : s.value?.isSome = true := by
  -- without a point the number may be an integer, which the value treats on its own
  by_cases hnone : s.fraction = []
  · have hwhole := absorb_of_length hdigits hlength
    simp only [Spelling.value?, hwhole, hnone, hexponent]
    split
    · split
      · rfl
      · split <;> rfl
    · rename_i hparts
      exact absurd ⟨trivial, trivial, trivial⟩ hparts
  · exact isSome_value?_of_point hdigits hlength hnone hfraction hexponent

/-- Digits that fit have a value with any exponent of two digits. -/
theorem isSome_value?_of_shortExponent (h : l.Moderate) (hl : l.exponent ≠ none) {e : Int}
    (he : e.natAbs ≤ 40) (negative : Bool) :
    (({ l with exponent := some e } : Literal).spelling negative).value?.isSome = true := by
  have hpos := h.pos hl
  have hfits := h.fits
  have hvalue := value?_spelling (l := { l with exponent := some e })
    (fun hparts => absurd hparts.2 (by simp)) hfits negative
  rw [hvalue, Option.isSome_map]
  show (scale? l.decimal.digits (e - l.fraction.length)).isSome = true
  cases hexponent : e - (l.fraction.length : Int) with
  -- a negative power is reached by quotients, which cannot leave the finite numbers
  | negSucc k => exact isSome_scale?_negSucc _ k
  | ofNat k =>
    have hk : k ≤ 40 := by
      have hcast : Int.ofNat k = (k : Int) := rfl
      omega
    refine isSome_scale?_of_le hpos ?_
    -- a full word times this power is still below the greatest finite number
    have hgreat : Numeral.maxWord * power 10 40 ≤ (power 2 54 - 5) * power 2 970 := by
      decide +kernel
    exact Nat.le_trans (Nat.mul_le_mul hfits (power_le_power (Nat.succ_pos 9) hk)) hgreat

/-! ### Spellings of cuts -/

/-- The spelling of digits around a point, and of what follows them. -/
theorem WellFormed.spelling_append (h : l.WellFormed) {tail : List UInt8}
    (hhead : ∀ b ∈ tail.head?, isDigitByte b = false ∧ b ≠ '.'.toUInt8) (negative : Bool) :
    Json.spelling negative
        (Text.toBytes l.whole ++ (Text.toBytes (fractionText l.fraction) ++ tail))
      = (exponentPart tail).map fun found =>
          ({ l.spelling negative with exponent := found.1 }, found.2) :=
  spelling_of_parts h.spellsDigits h.eq_zero_of_head? h.spellsFraction hhead negative

/-- What the reader finds in a part of a literal: too little, or a number that has a value and ends
    with the input. -/
def SpellsPart (negative : Bool) (cut : List UInt8) : Prop :=
  Json.spelling negative cut = .error .cutShort ∨
    ∃ s : Spelling, Json.spelling negative cut = .ok (s, []) ∧ s.value?.isSome = true

/-- Some digits of a literal around its point, without the exponent. -/
theorem spellsPart_of_noExponent (h : l.WellFormed) (hlength : l.whole.length ≤ 16)
    {whole fraction more : Text} (hwhole : l.whole = whole ++ more) (hne : whole ≠ [])
    (hfraction : ∀ c ∈ fraction, c.isDigit = true) (negative : Bool) :
    SpellsPart negative (Text.toBytes whole ++ Text.toBytes (fractionText fraction)) := by
  have hdigits : ∀ c ∈ whole, c.isDigit = true := fun c hc =>
    h.whole_digits c (by rw [hwhole]; exact List.mem_append_left _ hc)
  have hwell : WellFormed ⟨whole, fraction, none⟩ := by
    refine ⟨hne, hdigits, fun hzero => ?_, hfraction⟩
    -- a zero in front is all there was
    have hhead : l.whole.head? = some '0' := by
      rw [hwhole, List.head?_append, show whole.head? = some '0' from hzero]
      rfl
    have hall := h.no_leading_zero hhead
    rw [hwhole] at hall
    obtain ⟨c, rest, rfl⟩ := List.exists_cons_of_ne_nil hne
    obtain ⟨rfl, hrest⟩ := List.cons.inj hall
    obtain ⟨rfl, -⟩ := List.append_eq_nil_iff.1 hrest
    rfl
  have hspelling : Json.spelling negative
      (Text.toBytes whole ++ (Text.toBytes (fractionText fraction) ++ []))
        = .ok (spelling negative ⟨whole, fraction, none⟩, []) :=
    hwell.spelling_append (by simp) negative
  rw [List.append_nil] at hspelling
  refine .inr ⟨_, hspelling, isSome_value?_of_noExponent (lt_ten_of_mem_map hdigits) ?_
    (lt_ten_of_mem_map hfraction) rfl⟩
  show (whole.map digitValue).length ≤ 16
  rw [hwhole, List.length_append] at hlength
  -- what is left is shorter than the whole
  rw [List.length_map]
  omega

/-- The first digits of a number stand for a tenth of it at most. -/
theorem ten_mul_ofDigits_le {n : Nat} {first last : Text} (h : Numeral.write n = first ++ last)
    (hlast : last ≠ []) : 10 * ofDigits (first.map digitValue) ≤ n := by
  have hwhole : appendDigits (ofDigits (first.map digitValue)) (last.map digitValue) = n := by
    have hself := ofDigits_write n
    rw [h, List.map_append, ofDigits, List.foldl_append] at hself
    exact hself
  -- at least one digit is gone, and each of them was worth a factor of ten
  have hten : 10 ≤ power 10 (last.map digitValue).length := by
    rw [List.length_map]
    exact power_le_power (Nat.succ_pos 9) (m := 1) (List.length_pos_of_ne_nil hlast)
  calc 10 * ofDigits (first.map digitValue)
      ≤ power 10 (last.map digitValue).length * ofDigits (first.map digitValue) :=
        Nat.mul_le_mul_right _ hten
    _ = ofDigits (first.map digitValue) * power 10 (last.map digitValue).length := Nat.mul_comm _ _
    _ ≤ appendDigits (ofDigits (first.map digitValue)) (last.map digitValue) :=
        mul_power_le_appendDigits _ _
    _ = n := hwhole

/-- The letter, the sign and the digits of an exponent. -/
theorem toBytes_exponent (sign : Char) (t : Text) :
    Text.toBytes ('e' :: sign :: t)
      = 'e'.toUInt8 :: (Text.toBytes [sign] ++ Text.toBytes t) := by
  rw [← Text.toBytes_append]
  rfl

/-- The digits of a literal with a part of its exponent. -/
theorem spellsPart_of_exponent (h : l.WellFormed) (hmoderate : l.Moderate) {e : Int}
    (he : l.exponent = some e) (hcut : IsCutOf cut (Text.toBytes (exponentText (some e))))
    (hne : cut ≠ []) (negative : Bool) :
    SpellsPart negative
      (Text.toBytes l.whole ++ (Text.toBytes (fractionText l.fraction) ++ cut)) := by
  have hdigits : ∀ c ∈ Numeral.write e.natAbs, c.isDigit = true :=
    fun c hc => Numeral.isDigit_of_mem_write hc
  rw [exponentText, toBytes_exponent] at hcut
  rcases hcut.cases_cons with rfl | ⟨c, rfl, hc⟩
  · exact absurd rfl hne
  have hhead : ∀ b ∈ ('e'.toUInt8 :: c).head?, isDigitByte b = false ∧ b ≠ '.'.toUInt8 := by
    intro b hb
    obtain rfl : 'e'.toUInt8 = b := Option.some.inj hb
    decide
  have hspelling := h.spelling_append hhead negative
  rcases hc.cases_append with hc | ⟨d, rfl, hd⟩
  · -- nothing behind the letter
    have hsign : Text.toBytes [if e < 0 then '-' else '+']
        = [(if e < 0 then '-' else '+').toUInt8] := by split <;> rfl
    rw [hsign] at hc
    rcases hc.cases_cons with rfl | ⟨d, rfl, hd⟩
    · exact .inl hspelling
    · exact absurd hd not_isCutOf_nil
  · obtain ⟨first, last, hwrite, hlast, rfl⟩ := exists_of_isCutOf_digits hdigits hd
    by_cases hfirst : first = []
    · -- nothing behind the sign
      subst hfirst
      refine .inl ?_
      rw [hspelling]
      split <;> rfl
    · -- a digit is missing, so what is left is a tenth at most of a moderate exponent
      have hbound := hmoderate.exponent_le e he
      have htenth := ten_mul_ofDigits_le hwrite hlast
      have hsigned := exponentPart_spelled (spellsExponent_signed (decide (e < 0)) hfirst
        fun c hc => hdigits c (by rw [hwrite]; exact List.mem_append_left _ hc)) Reader.ends_nil
      rw [List.append_nil] at hsigned
      simp only [decide_eq_true_eq] at hsigned
      rw [toBytes_exponent] at hsigned
      rw [hsigned] at hspelling
      refine .inr ⟨_, hspelling, ?_⟩
      exact isSome_value?_of_shortExponent hmoderate (by simp [he]) (by split <;> omega) negative

/-- All digits before the point, with a part of those behind it. -/
theorem spellsPart_of_fraction (h : l.WellFormed) (hlength : l.whole.length ≤ 16)
    (hcut : IsCutOf cut (Text.toBytes (fractionText l.fraction))) (negative : Bool) :
    SpellsPart negative (Text.toBytes l.whole ++ cut) := by
  have hwhole (fraction : Text) (hfraction : ∀ c ∈ fraction, c.isDigit = true) :
      SpellsPart negative (Text.toBytes l.whole ++ Text.toBytes (fractionText fraction)) :=
    spellsPart_of_noExponent h hlength (List.append_nil _).symm h.whole_ne_nil hfraction negative
  cases hfraction : l.fraction with
  | nil =>
    rw [hfraction] at hcut
    exact absurd hcut not_isCutOf_nil
  | cons f more =>
    have hdigits := h.fraction_digits
    rw [hfraction] at hcut hdigits
    have hcut : IsCutOf cut ('.'.toUInt8 :: Text.toBytes (f :: more)) := hcut
    -- either the point is missing too, or some of the digits behind it
    rcases hcut.cases_cons with rfl | ⟨c, rfl, hc⟩
    · exact hwhole [] (by simp)
    · obtain ⟨first, last, hfirst, -, rfl⟩ := exists_of_isCutOf_digits hdigits hc
      cases first with
      | nil =>
        -- nothing behind the point
        have hhead : ∀ b ∈ ['.'.toUInt8].head?, isDigitByte b = false := by
          intro b hb
          obtain rfl : '.'.toUInt8 = b := Option.some.inj hb
          decide
        refine .inl ?_
        rw [Text.toBytes_nil, Json.spelling,
          wholeDigits_spelled h.spellsDigits h.eq_zero_of_head? hhead]
        rfl
      | cons g first =>
        exact hwhole (g :: first) fun c hc =>
          hdigits c (by rw [hfirst]; exact List.mem_append_left _ hc)

/-- **A number that is cut off.**  In a cut of a literal the reader finds too little, or a number
    that has a value and ends with the input. -/
theorem spelling_of_isCutOf (h : l.WellFormed) (hmoderate : l.Moderate)
    (hcut : IsCutOf cut (Text.toBytes l.text)) (negative : Bool) : SpellsPart negative cut := by
  rw [text, Text.toBytes_append, Text.toBytes_append] at hcut
  have hlength := hmoderate.whole_length
  rcases hcut.cases_append with hcut | ⟨c, rfl, hc⟩
  · -- before the point
    obtain ⟨first, last, hfirst, -, rfl⟩ := exists_of_isCutOf_digits h.whole_digits hcut
    by_cases hnone : first = []
    · subst hnone
      exact .inl rfl
    · have hfraction : ∀ c ∈ ([] : Text), c.isDigit = true := by simp
      have hpart := spellsPart_of_noExponent h hlength hfirst hnone hfraction negative
      rwa [fractionText, Text.toBytes_nil, List.append_nil] at hpart
  -- behind the digits before the point: within those after it, or within the exponent
  rcases hc.cases_append with hc | ⟨d, rfl, hd⟩
  · exact spellsPart_of_fraction h hlength hc negative
  · by_cases hnone : d = []
    · -- the exponent is missing as a whole
      subst hnone
      rw [List.append_nil]
      exact spellsPart_of_noExponent h hlength (List.append_nil _).symm h.whole_ne_nil
        h.fraction_digits negative
    · cases he : l.exponent with
      | none =>
        rw [he] at hd
        exact absurd hd not_isCutOf_nil
      | some e =>
        rw [he] at hd
        exact spellsPart_of_exponent h hmoderate he hd hnone negative

end Literal

namespace Magnitude

variable {m : Magnitude}

/-- A number below the power `k` of ten has no more than `k` digits. -/
theorem length_write_le {n k : Nat} (hk : 0 < k) (h : n < power 10 k) :
    (Numeral.write n).length ≤ k :=
  (Nat.length_toDigits_le_iff (by decide) hk).2 h

/-- What is written for a magnitude has moderate parts. -/
theorem moderate_literal (m : Magnitude) : m.literal.Moderate := by
  -- zero is written on its own; the bounds of the shortest decimal need a positive rank
  rcases Nat.eq_zero_or_pos m.rank with hzero | hpos
  · rw [literal_of_zero hzero]
    exact ⟨by decide, by decide, fun h => absurd rfl h,
      fun e he => absurd he (by simp [Literal.zero])⟩
  · obtain ⟨hdigits, hfits, -, -, -⟩ := decimal_literal_bounds hpos
    obtain ⟨hlow, hhigh⟩ := shortest_exponent_bounds hpos
    refine ⟨?_, hfits, fun _ => hdigits, ?_⟩
    · rw [literal_of_pos hpos]
      by_cases hnear : -5 ≤ m.shortest.leading ∧ m.shortest.leading < 16
      · exact (literal_near hnear).1
      · rw [Decimal.literal, if_neg hnear]
        exact Nat.le_trans (List.length_take_le 1 _) (by decide)
    · intro e he
      have hlength : (Numeral.write m.shortest.digits).length ≤ 20 := by
        refine length_write_le (by decide) (Nat.lt_trans (shortest_digits_lt hpos) ?_)
        decide
      have hleading : m.shortest.leading
          = (Numeral.write m.shortest.digits).length - 1 + m.shortest.exponent := rfl
      rw [literal_of_pos hpos] at he
      by_cases hnear : -5 ≤ m.shortest.leading ∧ m.shortest.leading < 16
      · rw [(literal_near hnear).2.2] at he
        exact absurd he (by simp)
      · rw [Decimal.literal, if_neg hnear] at he
        obtain rfl := Option.some.inj he
        omega

end Magnitude

namespace Json.Reader

variable {ε : Type} {cut : List UInt8}

/-- A number behind its sign, as the reader of numbers finds it. -/
theorem outcome_number_of_spellsPart {negative : Bool} (h : Literal.SpellsPart negative cut)
    {b : UInt8} {input : List UInt8} (hb : isSpaceByte b = false)
    (hfound : (found b : Reader ε Found).run (b :: input)
      = (scan (Json.number negative) >>= fun n => pure n.found).run cut) :
    ((number : Reader ε Binary64).run (b :: input)).outcome = .error .cutShort ∨
      ∃ x, ((number : Reader ε Binary64).run (b :: input)).outcome = .ok (x, []) := by
  -- the fault passes through the steps behind it, and so does the number that was found
  rcases h with herror | ⟨s, hs, hvalue⟩
  · refine .inl (outcome_wanting_of_error hb ?_)
    have hnumber : ((scan (Json.number negative) : Reader ε Number).run cut).outcome
        = .error .cutShort := by
      show Json.number negative cut = _
      rw [Json.number, herror]
      rfl
    rw [hfound]
    exact outcome_bind_of_error hnumber _
  · obtain ⟨v, hv⟩ := Option.isSome_iff_exists.1 hvalue
    have hnumber : (scan (Json.number negative) : Reader ε Number).run cut = ⟨[], .ok (v, [])⟩ := by
      have hok : Json.number negative cut = .ok (v, []) := by
        rw [Json.number, hs]
        simp only [bind, Except.bind, hv]
        rfl
      exact congrArg (Progress.mk []) hok
    rw [run_bind_of_silent hnumber, run_pure] at hfound
    refine .inr ⟨v.toBinary64, ?_⟩
    have htaken : (number : Reader ε Binary64).run (b :: input) = ⟨[], .ok (v.toBinary64, [])⟩ :=
      run_wanting_of_take hb hfound (by cases v <;> rfl)
    rw [htaken]

/-- **Numbers on cuts.**  On a cut of what has been written for a finite number, the reader of
    numbers finds that the input ends too early, or a number that ends with the input. -/
theorem starves_number {x : Binary64} (hx : x.isFinite = true) :
    Starves (number : Reader ε Binary64) (Text.toBytes (writeNumber x)) := by
  cases x with
  | nan => exact absurd hx (by decide)
  | signed negative m =>
    intro cut hcut
    have hwell := m.literal_wellFormed
    rw [Magnitude.writeNumber_eq hx] at hcut
    -- the sign decides only which byte the reader has taken before it counts the digits
    cases negative with
    | true =>
      have hcut : IsCutOf cut ('-'.toUInt8 :: Text.toBytes m.literal.text) := hcut
      rcases hcut.cases_cons with rfl | ⟨c, rfl, hc⟩
      · exact .inl (outcome_wanting_nil _ _)
      · exact outcome_number_of_spellsPart
          (Literal.spelling_of_isCutOf hwell m.moderate_literal hc true) (by decide)
          (run_bind_of_silent (run_advance _ c) _)
    | false =>
      have hcut : IsCutOf cut (Text.toBytes m.literal.text) := hcut
      have hpart := Literal.spelling_of_isCutOf hwell m.moderate_literal hcut false
      obtain ⟨b, tail, htext, hdigit⟩ := (hwell.spellsUnsigned false).exists_cons
      rw [htext] at hcut
      rcases hcut.cases_cons with rfl | ⟨d, rfl, -⟩
      · exact .inl (outcome_wanting_nil _ _)
      · exact outcome_number_of_spellsPart hpart (not_space_of_digit hdigit)
          (by rw [found_digit hdigit])

end Json.Reader

end D0L
