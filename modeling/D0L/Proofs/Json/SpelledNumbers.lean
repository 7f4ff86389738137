import D0L.Proofs.Json.Following
import Mathlib.Data.List.TakeWhile

namespace D0L.Json

/-!
# Numbers are read as they are spelled

Behind the digits of a number there can be a point with more digits, and behind that an exponent
with a sign or without, in either case.  This file says in which ways a number can be spelled, and
follows the reader through the parts of each spelling.

* `SpellsDigits`, `SpellsFraction`, `SpellsExponent` — the parts of a number.
* `SpellsNumber` — a whole number.
* `spelling_spelled` — all parts are found, and what follows the number is left.
* `SpellsBinary64`, `Reader.run_number_spelled` — a number with its value.
-/

open Reader (Ends)

/-! ### Spellings -/

/-- The way to spell some digits, of which there is at least one. -/
def SpellsDigits (digits : List Nat) (bytes : List UInt8) : Prop :=
  bytes ≠ [] ∧ (∀ b ∈ bytes, isDigitByte b = true) ∧
    digits = bytes.map fun b => b.toNat - '0'.toNat

/-- The ways to spell the digits behind the point; without digits there is no point. -/
inductive SpellsFraction : List Nat → List UInt8 → Prop
  | none : SpellsFraction [] []
  | point {digits : List Nat} {bytes : List UInt8} (h : SpellsDigits digits bytes) :
      SpellsFraction digits ('.'.toUInt8 :: bytes)

/-- The ways to spell the sign of an exponent. -/
inductive SpellsSign : (negative : Bool) → List UInt8 → Prop
  | none : SpellsSign false []
  | plus : SpellsSign false ['+'.toUInt8]
  | minus : SpellsSign true ['-'.toUInt8]

/-- The ways to spell an exponent, or that there is none. -/
inductive SpellsExponent : Option Int → List UInt8 → Prop
  | none : SpellsExponent none []
  | mark {b : UInt8} {negative : Bool} {sign bytes : List UInt8} {digits : List Nat}
      (hmark : b = 'e'.toUInt8 ∨ b = 'E'.toUInt8) (hsign : SpellsSign negative sign)
      (h : SpellsDigits digits bytes) :
      SpellsExponent (some (if negative then -(ofDigits digits : Int) else ofDigits digits))
        (b :: (sign ++ bytes))

/-- The ways to spell a number behind its minus sign.  Only zero starts with the digit zero. -/
def SpellsUnsigned (s : Spelling) (bytes : List UInt8) : Prop :=
  ∃ whole fraction exponent, SpellsDigits s.whole whole ∧
    (s.whole.head? = some 0 → s.whole = [0]) ∧ SpellsFraction s.fraction fraction ∧
    SpellsExponent s.exponent exponent ∧ bytes = whole ++ (fraction ++ exponent)

/-- The ways to spell a number. -/
def SpellsNumber (s : Spelling) (bytes : List UInt8) : Prop :=
  ∃ unsigned, SpellsUnsigned s unsigned ∧
    bytes = if s.negative then '-'.toUInt8 :: unsigned else unsigned

variable {digits : List Nat} {bytes rest : List UInt8} {s : Spelling}

/-! ### What stands where a part ends -/

/-- Digits begin with a digit, and hold nothing else. -/
theorem SpellsDigits.exists_cons (h : SpellsDigits digits bytes) :
    ∃ b more, bytes = b :: more ∧ isDigitByte b = true ∧ ∀ c ∈ more, isDigitByte c = true := by
  obtain ⟨hne, hdigits, -⟩ := h
  obtain ⟨b, more, rfl⟩ := List.exists_cons_of_ne_nil hne
  exact ⟨b, more, rfl, hdigits b (by simp), fun c hc => hdigits c (List.mem_cons_of_mem _ hc)⟩

/-- So does a number without its sign. -/
theorem SpellsUnsigned.exists_cons (h : SpellsUnsigned s bytes) :
    ∃ b more, bytes = b :: more ∧ isDigitByte b = true := by
  obtain ⟨whole, fraction, exponent, hwhole, -, -, -, rfl⟩ := h
  obtain ⟨b, more, rfl, hb, -⟩ := hwhole.exists_cons
  exact ⟨b, more ++ (fraction ++ exponent), rfl, hb⟩

/-- An exponent is no digit and no point, and neither is what can follow a number. -/
theorem SpellsExponent.head {exponent : Option Int} (h : SpellsExponent exponent bytes)
    (hrest : Ends rest) :
    ∀ b ∈ (bytes ++ rest).head?, isDigitByte b = false ∧ b ≠ '.'.toUInt8 := by
  cases h with
  | none => exact fun b hb => ⟨(hrest b hb).1, (hrest b hb).2.1⟩
  | mark hmark =>
    intro c hc
    obtain rfl := Option.some.inj hc
    rcases hmark with rfl | rfl <;> decide

/-- A point is no digit. -/
theorem SpellsFraction.head {fraction : List Nat} (h : SpellsFraction fraction bytes)
    (hrest : ∀ b ∈ rest.head?, isDigitByte b = false ∧ b ≠ '.'.toUInt8) :
    ∀ b ∈ (bytes ++ rest).head?, isDigitByte b = false := by
  cases h with
  | none => exact fun b hb => (hrest b hb).1
  | point =>
    intro c hc
    obtain rfl := Option.some.inj hc
    decide

/-! ### Parts -/

/-- A run of digits is found where it is spelled. -/
theorem someDigits_spelled (h : SpellsDigits digits bytes)
    (hrest : ∀ b ∈ rest.head?, isDigitByte b = false) :
    someDigits (bytes ++ rest) = .ok (digits, rest) := by
  obtain ⟨hne, hdigits, rfl⟩ := h
  have hrun : digitRun bytes = (bytes.map fun b => b.toNat - '0'.toNat, []) := by
    rw [digitRun, List.takeWhile_eq_self_iff.2 hdigits, List.dropWhile_eq_nil_iff.2 hdigits]
  rw [someDigits_eq_ok_iff, digitRun_append hrest, hrun]
  exact ⟨rfl, by simpa using hne⟩

/-- The digits before the point are found where they are spelled, if no zero stands in front of
    others. -/
theorem wholeDigits_spelled (h : SpellsDigits digits bytes)
    (hzero : digits.head? = some 0 → digits = [0])
    (hrest : ∀ b ∈ rest.head?, isDigitByte b = false) :
    wholeDigits (bytes ++ rest) = .ok (digits, rest) :=
  wholeDigits_eq_ok_iff.2 ⟨someDigits_spelled h hrest, hzero⟩

/-- The digits behind the point are found where they are spelled. -/
theorem fractionDigits_spelled (h : SpellsFraction digits bytes)
    (hrest : ∀ b ∈ rest.head?, isDigitByte b = false ∧ b ≠ '.'.toUInt8) :
    fractionDigits (bytes ++ rest) = .ok (digits, rest) := by
  cases h with
  | none =>
    cases rest with
    | nil => rfl
    | cons b rest => exact if_neg (hrest b rfl).2
  | point h =>
    rw [List.cons_append, fractionDigits, if_pos rfl]
    exact someDigits_spelled h fun b hb => (hrest b hb).1

/-- An exponent is found where it is spelled. -/
theorem exponentPart_spelled {exponent : Option Int} (h : SpellsExponent exponent bytes)
    (hrest : Ends rest) : exponentPart (bytes ++ rest) = .ok (exponent, rest) := by
  cases h with
  | none =>
    have hnone : exponentPart [] = .ok (none, []) := rfl
    exact exponentPart_append hnone hrest
  | mark hmark hsign h =>
    have hdigits := someDigits_spelled h fun b hb => (hrest b hb).1
    -- without a sign, the first digit must not be taken for one
    cases hsign with
    | none =>
      obtain ⟨b, more, rfl, hb, -⟩ := h.exists_cons
      have hminus : b ≠ '-'.toUInt8 := by
        rintro rfl
        exact absurd hb (by decide)
      have hplus : b ≠ '+'.toUInt8 := by
        rintro rfl
        exact absurd hb (by decide)
      rw [List.cons_append] at hdigits
      simp only [List.nil_append, List.cons_append, exponentPart, if_pos hmark, if_neg hminus,
        if_neg hplus, hdigits]
    | plus =>
      have hminus : '+'.toUInt8 ≠ '-'.toUInt8 := by decide
      simp only [List.nil_append, List.cons_append, exponentPart, if_pos hmark,
        if_neg hminus, if_true, hdigits]
    | minus =>
      simp only [List.nil_append, List.cons_append, exponentPart, if_pos hmark, if_true,
        hdigits]

/-! ### Numbers -/

/-- The digits around the point, and then what is found of an exponent. -/
theorem spelling_of_parts {wholes fractions : List Nat} {whole fraction : List UInt8}
    (hwhole : SpellsDigits wholes whole) (hzero : wholes.head? = some 0 → wholes = [0])
    (hfraction : SpellsFraction fractions fraction)
    (hrest : ∀ b ∈ rest.head?, isDigitByte b = false ∧ b ≠ '.'.toUInt8) (negative : Bool) :
    spelling negative (whole ++ (fraction ++ rest))
      = (exponentPart rest).map fun found => (⟨negative, wholes, fractions, found.1⟩, found.2) := by
  rw [spelling, wholeDigits_spelled hwhole hzero (hfraction.head hrest)]
  show (fractionDigits (fraction ++ rest) >>= _ : Except Fault (Spelling × List UInt8)) = _
  rw [fractionDigits_spelled hfraction hrest]
  show (exponentPart rest >>= _ : Except Fault (Spelling × List UInt8)) = _
  cases exponentPart rest <;> rfl

/-- **All parts are found.** -/
theorem spelling_spelled (h : SpellsUnsigned s bytes) (hrest : Ends rest) :
    spelling s.negative (bytes ++ rest) = .ok (s, rest) := by
  obtain ⟨whole, fraction, exponent, hwhole, hzero, hfraction, hexponent, rfl⟩ := h
  rw [List.append_assoc, List.append_assoc,
    spelling_of_parts hwhole hzero hfraction (hexponent.head hrest),
    exponentPart_spelled hexponent hrest]
  rfl

/-- The ways to spell a number with some value. -/
def SpellsBinary64 (x : Binary64) (bytes : List UInt8) : Prop :=
  ∃ s v, SpellsNumber s bytes ∧ s.value? = some v ∧ v.toBinary64 = x

namespace Reader

variable {ε : Type} {x : Binary64}

/-- A digit starts a number without a minus sign. -/
theorem found_digit {b : UInt8} (hb : isDigitByte b = true) :
    (found b : Reader ε Found) = scan (Json.number false) >>= fun n => pure n.found := by
  have hne : b ≠ 'n'.toUInt8 ∧ b ≠ 't'.toUInt8 ∧ b ≠ 'f'.toUInt8 ∧ b ≠ '-'.toUInt8 := by
    refine ⟨?_, ?_, ?_, ?_⟩
    all_goals
      rintro rfl
      exact absurd hb (by decide)
  rw [found, if_neg hne.1, if_neg hne.2.1, if_neg hne.2.2.1, if_neg hne.2.2.2, if_pos hb]

/-- A digit is no blank. -/
theorem not_space_of_digit {b : UInt8} (hb : isDigitByte b = true) : isSpaceByte b = false := by
  rw [isDigitByte, Bool.and_eq_true, decide_eq_true_eq, decide_eq_true_eq] at hb
  rw [Bool.eq_false_iff]
  intro hspace
  simp only [isSpaceByte, Bool.or_eq_true, decide_eq_true_eq] at hspace
  rcases hspace with ((rfl | rfl) | rfl) | rfl <;> exact absurd hb (by decide)

/-- A number is read if its spelling is, and has a value. -/
theorem run_number_of_spelling {negative : Bool} {b : UInt8} {input left : List UInt8}
    {s : Spelling} {v : Number} (hb : isDigitByte b = true)
    (h : spelling negative (b :: input) = .ok (s, left)) (hv : s.value? = some v) :
    (number : Reader ε Binary64).run (if negative then '-'.toUInt8 :: b :: input else b :: input)
      = ⟨[], .ok (v.toBinary64, left)⟩ := by
  have hnumber : Json.number negative (b :: input) = .ok (v, left) := by
    rw [Json.number, h]
    simp only [bind, Except.bind, hv]
    rfl
  have hscan : (scan (Json.number negative) : Reader ε Number).run (b :: input)
      = ⟨[], .ok (v, left)⟩ :=
    congrArg (Progress.mk []) hnumber
  -- only the byte that shows the kind of value differs
  cases negative with
  | true =>
    have hfound : (found '-'.toUInt8 : Reader ε Found).run ('-'.toUInt8 :: b :: input)
        = ⟨[], .ok (v.found, left)⟩ := by
      show (advance >>= fun _ => scan (Json.number true) >>= fun n => pure n.found :
        Reader ε Found).run _ = _
      rw [run_bind_of_silent (run_advance _ _), run_bind_of_silent hscan, run_pure]
    refine run_wanting_of_take (by decide) hfound ?_
    cases v <;> rfl
  | false =>
    have hfound : (found b : Reader ε Found).run (b :: input) = ⟨[], .ok (v.found, left)⟩ := by
      rw [found_digit hb, run_bind_of_silent hscan, run_pure]
    refine run_wanting_of_take (not_space_of_digit hb) hfound ?_
    cases v <;> rfl

/-- **A number is read as it is spelled.** -/
theorem run_number_spelled (h : SpellsBinary64 x bytes) (hrest : Ends rest) :
    (number : Reader ε Binary64).run (bytes ++ rest) = ⟨[], .ok (x, rest)⟩ := by
  obtain ⟨s, v, ⟨unsigned, hunsigned, rfl⟩, hv, rfl⟩ := h
  have hspelling := spelling_spelled hunsigned hrest
  obtain ⟨b, more, rfl, hb⟩ := hunsigned.exists_cons
  have hrun := run_number_of_spelling (ε := ε) hb hspelling hv
  cases hnegative : s.negative with
  | true => rwa [hnegative] at hrun
  | false => rwa [hnegative] at hrun

end Reader

end D0L.Json
