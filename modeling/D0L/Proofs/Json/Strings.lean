import D0L.Json.Strings

namespace D0L.Json

/-!
# Strings are read as they are spelled

Inside quotes, most characters can stand for themselves, and every character can be escaped: some
by one letter, all by hexadecimal code units.  This file says in which ways a text can be spelled,
and proves that the reader finds the text of every spelling, one character at a time: every
character, escaped or not, adds its own bytes to those that have been read.

* `stringBytes_escape`, `stringBytes_unit`, `stringBytes_otherHalf`, `stringBytes_plain` — one lemma
  for each step of a spelling.
* `SpellsText`, `SpellsString` — the spellings of a text, without and with the quotes around it.
* `stringBody_spelled` — every spelling of a text is read as this text.
* `spellsString_write` — what is written for a text is one of its spellings.
-/

variable {read rest : List UInt8}

/-! ### Steps of a spelling -/

/-- A backslash with one character behind it stands for one byte. -/
theorem stringBytes_escape {b c : UInt8} (h : shortEscape? b = some c) :
    stringBytes read .plain ('\\'.toUInt8 :: b :: rest) = stringBytes (c :: read) .plain rest := by
  have hu : b ≠ 'u'.toUInt8 := by
    rintro rfl
    exact nomatch (show shortEscape? 'u'.toUInt8 = none from rfl).symm.trans h
  have hstep : Inside.step b .escape = some (.plain, [c]) := by
    rw [Inside.step, if_neg hu, h]
    rfl
  rw [stringBytes, if_neg (by decide)]
  show stringBytes read .escape (b :: rest) = _
  rw [stringBytes, if_neg (by simp), hstep]
  rfl

/-- Four hexadecimal digits behind a backslash and the letter `u` are a code unit. -/
theorem stringBytes_unit {a b c d : UInt8} {n : Nat} {next : Inside} {bytes : List UInt8}
    (hnumber : hexNumber? 0 [a, b, c, d] = some n) (hunit : Inside.ofUnit n = some (next, bytes)) :
    stringBytes read .plain ('\\'.toUInt8 :: 'u'.toUInt8 :: a :: b :: c :: d :: rest)
      = stringBytes (bytes.reverse ++ read) next rest := by
  have hlast : Inside.step d (.unit [a, b, c]) = some (next, bytes) := by
    simp only [Inside.step, List.length_cons, List.length_nil, List.cons_append, List.nil_append,
      hnumber]
    exact hunit
  -- up to the last digit, every byte leads on without yielding anything
  show stringBytes read (.unit [a, b, c]) (d :: rest) = _
  rw [stringBytes, if_neg (by simp), hlast]

/-- Behind the first half of a pair, a second half completes the character. -/
theorem stringBytes_otherHalf {a b c d : UInt8} {high low : Nat}
    (hnumber : hexNumber? 0 [a, b, c, d] = some low) (hlow : isLowHalf low = true) :
    stringBytes read (.half high) ('\\'.toUInt8 :: 'u'.toUInt8 :: a :: b :: c :: d :: rest)
      = stringBytes ((String.utf8EncodeChar (Char.ofNat (joinHalves high low))).reverse ++ read)
          .plain rest := by
  have hlast : Inside.step d (.otherHalf high [a, b, c])
      = some (.plain, String.utf8EncodeChar (Char.ofNat (joinHalves high low))) := by
    simp only [Inside.step, List.length_cons, List.length_nil, List.cons_append, List.nil_append,
      hnumber]
    exact if_pos hlow
  show stringBytes read (.otherHalf high [a, b, c]) (d :: rest) = _
  rw [stringBytes, if_neg (by simp), hlast]

/-- Bytes without a meaning of their own stand for themselves. -/
theorem stringBytes_plain {bytes : List UInt8}
    (h : ∀ b ∈ bytes, 0x20 ≤ b ∧ b ≠ '"'.toUInt8 ∧ b ≠ '\\'.toUInt8) :
    stringBytes read .plain (bytes ++ rest) = stringBytes (bytes.reverse ++ read) .plain rest := by
  induction bytes generalizing read with
  | nil => rfl
  | cons b bytes ih =>
    obtain ⟨hcontrol, hquote, hbackslash⟩ := h b (by simp)
    have hstep : Inside.step b .plain = some (.plain, [b]) := by
      rw [Inside.step, if_neg hbackslash, if_neg (UInt8.not_lt.2 hcontrol)]
    rw [List.cons_append, stringBytes, if_neg (by simp [hquote]), hstep]
    show stringBytes (b :: read) .plain (bytes ++ rest) = _
    rw [ih fun b hb => h b (List.mem_cons_of_mem _ hb)]
    simp

/-! ### Characters that stand for themselves -/

/-- The bytes of a character that is no control, quote or backslash have no meaning of their own. -/
theorem plain_of_mem_utf8EncodeChar {c : Char} (hcontrol : 0x20 ≤ c.toNat) (hquote : c ≠ '"')
    (hbackslash : c ≠ '\\') {b : UInt8} (hb : b ∈ String.utf8EncodeChar c) :
    0x20 ≤ b ∧ b ≠ '"'.toUInt8 ∧ b ≠ '\\'.toUInt8 := by
  by_cases hascii : c.toNat < 0x80
  · rw [Text.utf8EncodeChar_of_ascii hascii, List.mem_singleton] at hb
    subst hb
    refine ⟨?_, Text.toUInt8_ne_of_ascii hascii (by decide) hquote,
      Text.toUInt8_ne_of_ascii hascii (by decide) hbackslash⟩
    rw [UInt8.le_iff_toNat_le]
    show 0x20 ≤ c.toNat % 256
    omega
  · -- the bytes of other characters are all beyond the small ones
    have hle : 0x80 ≤ b := Text.le_of_mem_utf8EncodeChar (Nat.not_lt.1 hascii) hb
    rw [UInt8.le_iff_toNat_le] at hle
    have hnat : 0x80 ≤ b.toNat := hle
    refine ⟨?_, ?_, ?_⟩
    · rw [UInt8.le_iff_toNat_le]
      show 0x20 ≤ b.toNat
      omega
    · rintro rfl
      exact absurd hnat (by decide)
    · rintro rfl
      exact absurd hnat (by decide)

/-! ### Spellings -/

/-- The characters with an escape of one letter, and these letters. -/
def letterEscapes : List (Char × Char) :=
  [('"', '"'), ('\\', '\\'), ('/', '/'), ('\x08', 'b'), ('\x0c', 'f'), ('\n', 'n'), ('\r', 'r'),
    ('\t', 't')]

/-- The ways to spell a text inside quotes. -/
inductive SpellsText : Text → List UInt8 → Prop
  /-- Nothing. -/
  | nil : SpellsText [] []
  /-- A character that stands for itself. -/
  | plain {c : Char} {t : Text} {bytes : List UInt8} (hcontrol : 0x20 ≤ c.toNat)
      (hquote : c ≠ '"') (hbackslash : c ≠ '\\') (more : SpellsText t bytes) :
      SpellsText (c :: t) (String.utf8EncodeChar c ++ bytes)
  /-- A character with an escape of one letter. -/
  | letter {c l : Char} {t : Text} {bytes : List UInt8} (h : (c, l) ∈ letterEscapes)
      (more : SpellsText t bytes) :
      SpellsText (c :: t) ('\\'.toUInt8 :: l.toUInt8 :: bytes)
  /-- A character that is one code unit. -/
  | unit {a b c d : UInt8} {n : Nat} {t : Text} {bytes : List UInt8}
      (hnumber : hexNumber? 0 [a, b, c, d] = some n) (hhigh : isHighHalf n = false)
      (hlow : isLowHalf n = false) (more : SpellsText t bytes) :
      SpellsText (Char.ofNat n :: t)
        ('\\'.toUInt8 :: 'u'.toUInt8 :: a :: b :: c :: d :: bytes)
  /-- A character that is a pair of code units. -/
  | pair {a b c d a' b' c' d' : UInt8} {high low : Nat} {t : Text} {bytes : List UInt8}
      (hnumber : hexNumber? 0 [a, b, c, d] = some high) (hhigh : isHighHalf high = true)
      (hother : hexNumber? 0 [a', b', c', d'] = some low) (hlow : isLowHalf low = true)
      (more : SpellsText t bytes) :
      SpellsText (Char.ofNat (joinHalves high low) :: t)
        ('\\'.toUInt8 :: 'u'.toUInt8 :: a :: b :: c :: d
          :: '\\'.toUInt8 :: 'u'.toUInt8 :: a' :: b' :: c' :: d' :: bytes)

/-- The ways to spell a text between quotes. -/
def SpellsString (t : Text) (bytes : List UInt8) : Prop :=
  ∃ inner, SpellsText t inner ∧ bytes = '"'.toUInt8 :: (inner ++ ['"'.toUInt8])

/-- The letter of an escape stands for the one byte of the character. -/
theorem shortEscape?_of_mem : ∀ e ∈ letterEscapes,
    shortEscape? e.2.toUInt8 = some e.1.toUInt8 ∧ String.utf8EncodeChar e.1 = [e.1.toUInt8] := by
  decide

/-- A unit that is no half of a pair stands for a character. -/
theorem Inside.ofUnit_of_single {n : Nat} (hhigh : isHighHalf n = false)
    (hlow : isLowHalf n = false) :
    ofUnit n = some (.plain, String.utf8EncodeChar (Char.ofNat n)) := by
  rw [ofUnit, hlow, hhigh]
  rfl

/-- A unit that is the first half of a pair waits for the other one. -/
theorem Inside.ofUnit_of_high {n : Nat} (hhigh : isHighHalf n = true) :
    ofUnit n = some (.half n, []) := by
  have hlow : isLowHalf n = false := by
    simp only [isHighHalf, isLowHalf, Bool.and_eq_true, Bool.and_eq_false_iff, decide_eq_true_eq,
      decide_eq_false_iff_not] at hhigh ⊢
    omega
  rw [ofUnit, hlow, hhigh]
  rfl

/-- The bytes of a spelling add the bytes of its text to those that have been read. -/
theorem stringBytes_spelled {t : Text} {bytes : List UInt8} (h : SpellsText t bytes) :
    stringBytes read .plain (bytes ++ rest)
      = stringBytes ((Text.toBytes t).reverse ++ read) .plain rest := by
  -- the bytes read so far grow with each character, so they are arbitrary in the induction
  induction h generalizing read with
  | nil => rfl
  | plain hcontrol hquote hbackslash _ ih =>
    rw [List.append_assoc, stringBytes_plain fun b hb =>
      plain_of_mem_utf8EncodeChar hcontrol hquote hbackslash hb, ih]
    simp
  | letter hmem _ ih =>
    obtain ⟨hescape, hbyte⟩ := shortEscape?_of_mem _ hmem
    rw [List.cons_append, List.cons_append, stringBytes_escape hescape, ih, Text.toBytes_cons,
      hbyte]
    simp
  | unit hnumber hhigh hlow _ ih =>
    simp only [List.cons_append]
    rw [stringBytes_unit hnumber (Inside.ofUnit_of_single hhigh hlow), ih]
    simp
  | pair hnumber hhigh hother hlow _ ih =>
    simp only [List.cons_append]
    rw [stringBytes_unit hnumber (Inside.ofUnit_of_high hhigh), stringBytes_otherHalf hother hlow,
      ih]
    simp

/-- **A string is read as it is spelled.**  Behind the opening quote the reader finds the text and
    stops behind the closing quote. -/
theorem stringBody_spelled {t : Text} {bytes : List UInt8} (h : SpellsText t bytes) :
    stringBody (bytes ++ '"'.toUInt8 :: rest) = .ok (t, rest) := by
  have hbytes : stringBytes [] .plain (bytes ++ '"'.toUInt8 :: rest)
      = .ok (Text.toBytes t, rest) := by
    rw [stringBytes_spelled h, stringBytes, if_pos ⟨rfl, rfl⟩, List.append_nil,
      List.reverse_reverse]
  rw [stringBody, hbytes]
  simp only [Text.ofBytes?_toBytes]

/-! ### Written strings -/

theorem digitChar_ascii : ∀ n < 16, (Nat.digitChar n).toNat < 0x80 := by decide

/-- The two last digits of a code unit below `0x20` stand for it. -/
theorem hexNumber?_control : ∀ n < 0x20,
    hexNumber? 0 (['0', '0', Nat.digitChar (n / 16), Nat.digitChar (n % 16)].map Char.toUInt8)
      = some n := by
  decide

/-- One character is written in one of the ways to spell it. -/
theorem spellsText_writeChar (c : Char) {t : Text} {bytes : List UInt8}
    (more : SpellsText t bytes) :
    SpellsText (c :: t) (Text.toBytes (writeChar c) ++ bytes) := by
  unfold writeChar
  split
  case h_8 hquote hbackslash _ _ _ _ _ =>
    by_cases hcontrol : c.toNat < 0x20
    · have hascii : ∀ d ∈ ['\\', 'u', '0', '0', Nat.digitChar (c.toNat / 16),
          Nat.digitChar (c.toNat % 16)], d.toNat < 0x80 := by
        have hhigh := digitChar_ascii (c.toNat / 16) (by omega)
        have hlow := digitChar_ascii (c.toNat % 16) (by omega)
        simp only [List.mem_cons, List.not_mem_nil, or_false]
        rintro d (rfl | rfl | rfl | rfl | rfl | rfl)
        · decide
        · decide
        · decide
        · decide
        · exact hhigh
        · exact hlow
      have hunit := SpellsText.unit (hexNumber?_control c.toNat hcontrol)
        (by simp [isHighHalf]; omega) (by simp [isLowHalf]; omega) more
      rw [Char.ofNat_toNat] at hunit
      rw [if_pos hcontrol, Text.toBytes_of_ascii hascii]
      exact hunit
    · have hbytes : Text.toBytes [c] = String.utf8EncodeChar c := by simp
      rw [if_neg hcontrol, hbytes]
      exact .plain (Nat.not_lt.1 hcontrol) hquote hbackslash more
  -- each of the others has an escape of one letter
  all_goals exact .letter (by decide) more

/-- What is written for a text is one of the ways to spell it. -/
theorem spellsText_write (t : Text) : SpellsText t (Text.toBytes (t.flatMap writeChar)) := by
  induction t with
  | nil => exact .nil
  | cons c t ih =>
    rw [List.flatMap_cons, Text.toBytes_append]
    exact spellsText_writeChar c ih

/-- What is written for a text is one of its spellings. -/
theorem spellsString_write (t : Text) : SpellsString t (Text.toBytes (writeString t)) := by
  refine ⟨_, spellsText_write t, ?_⟩
  show '"'.toUInt8 :: Text.toBytes (t.flatMap writeChar ++ ['"']) = _
  rw [Text.toBytes_append]
  rfl

/-- **A string is read as it is written.**  Behind the opening quote the reader finds the text and
    stops behind the closing quote. -/
theorem stringBody_write (t : Text) :
    stringBody (Text.toBytes (t.flatMap writeChar ++ ['"']) ++ rest) = .ok (t, rest) := by
  rw [Text.toBytes_append, List.append_assoc]
  exact stringBody_spelled (spellsText_write t)

end D0L.Json
