import D0L.Proofs.Json.SpelledNumbers

namespace D0L.Json

/-!
# Values of every shape are passed over

This file says what a value can look like, of any kind and nested to any depth, and proves that a
value is passed over as a whole: not a byte more, and not a byte less.  The reader does not go along
the nesting; it takes one byte after the other and keeps a list of open brackets.  So a stretch of
bytes is followed from one place, with some brackets open, to another.

* `IsQuoted`, `IsPart`, `IsValue` — what strings, the insides of brackets and values look like.
* `Passes` — the bytes lead from one place to another.
* `Passes.digits`, `passes_fraction`, `passes_exponent` — the parts of a number, and `passes_quoted`
  the inside of a string.
* `skipFrom_part` — values and the insides of brackets, by induction on how they are put together.
* `IsValue.skipValue_append` — a value in front of anything that does not go on with a number.
-/

open Reader (Ends ends_cons ends_nil ends_blank_append not_space_of_digit)

/-! ### What values look like -/

/-- What can stand between quotes.  Halves of pairs may stand alone here. -/
inductive IsQuoted : List UInt8 → Prop
  /-- Nothing. -/
  | nil : IsQuoted []
  /-- A character that stands for itself. -/
  | plain {c : Char} {bytes : List UInt8} (hcontrol : 0x20 ≤ c.toNat) (hquote : c ≠ '"')
      (hbackslash : c ≠ '\\') (more : IsQuoted bytes) : IsQuoted (String.utf8EncodeChar c ++ bytes)
  /-- A character with an escape of one letter. -/
  | letter {c l : Char} {bytes : List UInt8} (h : (c, l) ∈ letterEscapes)
      (more : IsQuoted bytes) : IsQuoted ('\\'.toUInt8 :: l.toUInt8 :: bytes)
  /-- Four hexadecimal digits. -/
  | unit {a b c d : UInt8} {n : Nat} {bytes : List UInt8}
      (hnumber : hexNumber? 0 [a, b, c, d] = some n) (more : IsQuoted bytes) :
      IsQuoted ('\\'.toUInt8 :: 'u'.toUInt8 :: a :: b :: c :: d :: bytes)

/-- The byte that opens a bracket. -/
def Bracket.opening : Bracket → UInt8
  | array => '['.toUInt8
  | object => '{'.toUInt8

/-- The place behind the byte that opens a bracket. -/
def Bracket.first : Bracket → Place
  | array => .firstItem
  | object => .firstKey

/-- The place behind a comma. -/
def Bracket.next : Bracket → Place
  | array => .value
  | object => .key

/-- What a stretch of a document can be. -/
inductive Part where
  /-- A value. -/
  | value
  /-- One or more elements or members, with the commas between them. -/
  | inside (bracket : Bracket)

/-- What values look like, and what stands inside brackets. -/
inductive IsPart : Part → List UInt8 → Prop
  /-- A literal. -/
  | literal {name : Text} (h : name ∈ ["null".toList, "true".toList, "false".toList]) :
      IsPart .value (Text.toBytes name)
  /-- A number of any size. -/
  | number {s : Spelling} {bytes : List UInt8} (h : SpellsNumber s bytes) : IsPart .value bytes
  /-- A string. -/
  | string {bytes : List UInt8} (h : IsQuoted bytes) :
      IsPart .value ('"'.toUInt8 :: (bytes ++ ['"'.toUInt8]))
  /-- Brackets with nothing inside. -/
  | empty (bracket : Bracket) {blanks : List UInt8} (h : Blank blanks) :
      IsPart .value (bracket.opening :: (blanks ++ [bracket.closing]))
  /-- Brackets. -/
  | brackets {bracket : Bracket} {bytes : List UInt8} (h : IsPart (.inside bracket) bytes) :
      IsPart .value (bracket.opening :: (bytes ++ [bracket.closing]))
  /-- One element. -/
  | element {before value after : List UInt8} (hbefore : Blank before) (h : IsPart .value value)
      (hafter : Blank after) : IsPart (.inside .array) (before ++ (value ++ after))
  /-- One member. -/
  | member {lead key before between value after : List UInt8} (hlead : Blank lead)
      (hkey : IsQuoted key) (hbefore : Blank before) (hbetween : Blank between)
      (h : IsPart .value value) (hafter : Blank after) :
      IsPart (.inside .object) (lead ++ ('"'.toUInt8 :: (key ++ ('"'.toUInt8 ::
        (before ++ (':'.toUInt8 :: (between ++ (value ++ after))))))))
  /-- More of them behind a comma. -/
  | comma {bracket : Bracket} {front back : List UInt8} (hfront : IsPart (.inside bracket) front)
      (hback : IsPart (.inside bracket) back) :
      IsPart (.inside bracket) (front ++ ','.toUInt8 :: back)

/-- The bytes are a value. -/
def IsValue (bytes : List UInt8) : Prop := IsPart .value bytes

/-! ### From place to place -/

/-- From the place `p` inside the brackets `outer`, the bytes lead to the place `q` inside the
    brackets `inner`. -/
def Passes (p : Place) (outer : List Bracket) (bytes : List UInt8) (q : Place)
    (inner : List Bracket) : Prop :=
  ∀ rest, skipFrom p outer (bytes ++ rest) = skipFrom q inner rest

variable {p q r : Place} {outer inner brackets : List Bracket} {u v bytes rest : List UInt8}
  {b : UInt8}

/-- No bytes lead nowhere else. -/
theorem Passes.refl (p : Place) (outer : List Bracket) : Passes p outer [] p outer := fun _ => rfl

/-- Ways are put together one behind the other. -/
theorem Passes.trans {last : List Bracket} (hu : Passes p outer u q inner)
    (hv : Passes q inner v r last) : Passes p outer (u ++ v) r last := by
  intro rest
  rw [List.append_assoc, hu, hv]

/-- One byte, and what follows it. -/
theorem Passes.cons {last : List Bracket} (hstep : p.step b outer = .go q inner)
    (hv : Passes q inner v r last) : Passes p outer (b :: v) r last := by
  intro rest
  rw [List.cons_append, skipFrom, hstep]
  exact hv rest

/-- One byte goes one step. -/
theorem Passes.step (hstep : p.step b outer = .go q inner) : Passes p outer [b] q inner :=
  .cons hstep (.refl q inner)

/-- Bytes of a kind that does not lead away from a place. -/
theorem Passes.stay (h : ∀ b ∈ bytes, p.step b outer = .go p outer) :
    Passes p outer bytes p outer := by
  induction bytes with
  | nil => exact .refl p outer
  | cons b bytes ih =>
    exact .cons (h b (by simp)) (ih fun c hc => h c (List.mem_cons_of_mem _ hc))

/-- The last byte of a value. -/
theorem skipFrom_of_ended (hstep : p.step b outer = .ended inner) (rest : List UInt8) :
    skipFrom p outer (b :: rest) = skipBehind inner rest := by
  rw [skipFrom, hstep]
  cases inner <;> rfl

/-- Between tokens, blanks do not lead away. -/
theorem passes_blank (hp : p ∈ [.value, .firstItem, .firstKey, .key, .colon])
    (h : Blank bytes) : Passes p outer bytes p outer := by
  refine .stay fun b hb => ?_
  simp only [List.mem_cons, List.not_mem_nil, or_false] at hp
  rcases hp with rfl | rfl | rfl | rfl | rfl <;> rw [Place.step, if_pos (h b hb)]

/-- Behind a value inside brackets, too. -/
theorem passes_blank_after {bracket : Bracket} (h : Blank bytes) :
    Passes .after (bracket :: outer) bytes .after (bracket :: outer) :=
  .stay fun b hb => if_pos (h b hb)

/-! ### Numbers -/

/-- A place inside a number is not left with digits. -/
theorem Passes.digits (hp : p ∈ [.whole, .fraction, .exponent])
    (h : ∀ b ∈ bytes, isDigitByte b = true) : Passes p outer bytes p outer := by
  refine .stay fun b hb => ?_
  simp only [List.mem_cons, List.not_mem_nil, or_false] at hp
  rcases hp with rfl | rfl | rfl <;> simp [Place.step, Move.inNumber, h b hb]

/-- The digits before the point. -/
theorem passes_whole {digits : List Nat} (h : SpellsDigits digits bytes)
    (hzero : digits.head? = some 0 → digits = [0])
    (hstep : ∀ b, isDigitByte b = true →
      p.step b outer = .go (if b = '0'.toUInt8 then .zero else .whole) outer) :
    ∃ q ∈ [.zero, .whole], Passes p outer bytes q outer := by
  have hdigits := h.2.2
  obtain ⟨b, more, rfl, hb, hmore⟩ := h.exists_cons
  have hfirst := hstep b hb
  by_cases hb : b = '0'.toUInt8
  · -- nothing follows a zero in front
    subst hb
    have hnone : more = [] := by
      have hlength := congrArg List.length (hzero (by rw [hdigits]; rfl))
      rw [hdigits] at hlength
      simpa using hlength
    rw [if_pos rfl] at hfirst
    rw [hnone]
    exact ⟨.zero, by simp, .step hfirst⟩
  · -- any other digit may go on with digits
    rw [if_neg hb] at hfirst
    exact ⟨.whole, by simp, .cons hfirst (.digits (by simp) hmore)⟩

/-- The digits behind the point, if there is one. -/
theorem passes_fraction {digits : List Nat} (h : SpellsFraction digits bytes)
    (hp : p ∈ [.zero, .whole]) (outer : List Bracket) :
    ∃ q ∈ [.zero, .whole, .fraction], Passes p outer bytes q outer := by
  simp only [List.mem_cons, List.not_mem_nil, or_false] at hp
  cases h with
  | none => exact ⟨p, by simpa using hp.imp_right .inl, .refl p outer⟩
  | point h =>
    obtain ⟨b, more, rfl, hb, hmore⟩ := h.exists_cons
    have hpoint : p.step '.'.toUInt8 outer = .go .point outer := by
      rcases hp with rfl | rfl <;> rfl
    have hfirst : Place.step b outer .point = .go .fraction outer := if_pos hb
    exact ⟨.fraction, by simp, .cons hpoint (.cons hfirst (.digits (by simp) hmore))⟩

/-- The exponent, if there is one. -/
theorem passes_exponent {exponent : Option Int} (h : SpellsExponent exponent bytes)
    (hp : p ∈ [.zero, .whole, .fraction]) (outer : List Bracket) :
    ∃ q ∈ [.zero, .whole, .fraction, .exponent], Passes p outer bytes q outer := by
  simp only [List.mem_cons, List.not_mem_nil, or_false] at hp
  cases h with
  | none => exact ⟨p, by simpa using hp.imp_right (Or.imp_right .inl), .refl p outer⟩
  | mark hmark hsign h =>
    obtain ⟨b, more, rfl, hb, hmore⟩ := h.exists_cons
    have hstart : ∀ c, c = 'e'.toUInt8 ∨ c = 'E'.toUInt8 → p.step c outer = .go .mark outer := by
      rintro c (rfl | rfl) <;> rcases hp with rfl | rfl | rfl <;> rfl
    have hrun : Passes .exponent outer more .exponent outer := .digits (by simp) hmore
    have hsigned : Place.step b outer .sign = .go .exponent outer := if_pos hb
    refine ⟨.exponent, by simp, .cons (hstart _ hmark) ?_⟩
    -- one byte, the sign or the first digit, decides between the two ways into the digits
    cases hsign with
    | none =>
      have hunsigned : Place.step b outer .mark = .go .exponent outer := by
        have hsign : ¬ (b = '+'.toUInt8 ∨ b = '-'.toUInt8) := by
          rintro (rfl | rfl) <;> exact absurd hb (by decide)
        rw [Place.step, if_neg hsign, if_pos hb]
      exact .cons hunsigned hrun
    | plus => exact .cons rfl (.cons hsigned hrun)
    | minus => exact .cons rfl (.cons hsigned hrun)

/-- The digits of a number and what belongs to them. -/
theorem skipFrom_unsigned {s : Spelling} (h : SpellsUnsigned s bytes)
    (hstep : ∀ b, isDigitByte b = true →
      p.step b outer = .go (if b = '0'.toUInt8 then .zero else .whole) outer) (hrest : Ends rest) :
    skipFrom p outer (bytes ++ rest) = skipBehind outer rest := by
  obtain ⟨whole, fraction, exponent, hwhole, hzero, hfraction, hexponent, rfl⟩ := h
  obtain ⟨q, hq, hfirst⟩ := passes_whole hwhole hzero hstep
  obtain ⟨r, hr, hsecond⟩ := passes_fraction hfraction hq outer
  obtain ⟨last, hlast, hthird⟩ := passes_exponent hexponent hr outer
  rw [hfirst.trans (hsecond.trans hthird)]
  exact skipFrom_number hlast outer hrest

/-! ### Strings -/

/-- The inside of a string. -/
theorem passes_quoted (isKey : Bool) (outer : List Bracket) (h : IsQuoted bytes) :
    Passes (.string isKey .plain) outer bytes (.string isKey .plain) outer := by
  have hescape : Place.step '\\'.toUInt8 outer (.string isKey .plain)
      = .go (.string isKey .escape) outer := rfl
  induction h with
  | nil => exact .refl _ outer
  -- no byte of such a character ends the string or escapes anything
  | plain hcontrol hquote hbackslash _ ih =>
    refine Passes.trans (.stay fun b hb => ?_) ih
    obtain ⟨hcontrol, hquote, hbackslash⟩ :=
      plain_of_mem_utf8EncodeChar hcontrol hquote hbackslash hb
    have hplain : Passing.step b .plain = some .plain := by
      rw [Passing.step, if_neg hbackslash, if_neg (UInt8.not_lt.2 hcontrol)]
    rw [Place.step, if_neg (by simp [hquote]), hplain]
  | @letter c l _ hmem _ ih =>
    have hletter : Passing.step l.toUInt8 .escape = some .plain := by
      have hu : ∀ e ∈ letterEscapes, e.2.toUInt8 ≠ 'u'.toUInt8 := by decide
      rw [Passing.step, if_neg (hu _ hmem), (shortEscape?_of_mem _ hmem).1]
      rfl
    refine .cons hescape (.cons ?_ ih)
    rw [Place.step, if_neg (by simp), hletter]
  -- there must be four hexadecimal digits, but the unit may be half of a pair
  | unit hnumber _ ih =>
    refine .cons hescape (.cons rfl (.cons rfl (.cons rfl (.cons rfl (.cons ?_ ih)))))
    simp [Place.step, Passing.step, hnumber]

/-! ### Literals -/

/-- Behind the last letter of a literal the value is over. -/
theorem skipFrom_literal {letters : List UInt8} (hne : letters ≠ []) (outer : List Bracket)
    (rest : List UInt8) :
    skipFrom (.literal letters) outer (letters ++ rest) = skipBehind outer rest := by
  induction letters with
  | nil => exact absurd rfl hne
  | cons c letters ih =>
    cases letters with
    | nil => exact skipFrom_of_ended (by simp [Place.step]) rest
    | cons d letters =>
      have hstep : Place.step c outer (.literal (c :: d :: letters))
          = .go (.literal (d :: letters)) outer := by simp [Place.step]
      rw [List.cons_append, skipFrom, hstep]
      exact ih (by simp)

/-! ### The start of a value -/

/-- A value starts in the same way with brackets around it, or as the first element of an array. -/
theorem step_of_start (hp : p ∈ [.value, .firstItem]) (hspace : isSpaceByte b = false)
    (hclosing : b ≠ Bracket.array.closing) (outer : List Bracket) :
    p.step b outer = .start b outer := by
  simp only [List.mem_cons, List.not_mem_nil, or_false] at hp
  rcases hp with rfl | rfl
  · simp [Place.step, hspace]
  · simp [Place.step, hspace, hclosing]

/-- A digit begins a number: one that is over at once if it is a zero, since no digit may follow. -/
theorem start_digit (hb : isDigitByte b = true) (outer : List Bracket) :
    Move.start b outer = .go (if b = '0'.toUInt8 then .zero else .whole) outer := by
  have hne (c : UInt8) (hc : isDigitByte c = false) : b ≠ c := by
    rintro rfl
    rw [hb] at hc
    cases hc
  rw [Move.start, if_neg (hne _ (by decide)), if_neg (hne _ (by decide)),
    if_neg (hne _ (by decide)), if_neg (hne _ (by decide)), if_neg (hne _ (by decide)),
    if_neg (hne _ (by decide)), if_neg (hne _ (by decide)), if_pos hb]
  split <;> rfl

/-- A bracket that opens leads inside, where it has to be closed first. -/
theorem step_opening (hp : p ∈ [.value, .firstItem]) (bracket : Bracket) (outer : List Bracket) :
    p.step bracket.opening outer = .go bracket.first (bracket :: outer) := by
  cases bracket with
  | array => exact step_of_start hp (by decide) (by decide) outer
  | object => exact step_of_start hp (by decide) (by decide) outer

/-! ### Values -/

/-- Where a stretch can start. -/
def Part.places : Part → List Place
  | value => [.value, .firstItem]
  | inside .array => [.firstItem, .value]
  | inside .object => [.firstKey, .key]

/-- The brackets around a stretch, with those outside. -/
def Part.around (outer : List Bracket) : Part → List Bracket
  | value => outer
  | inside bracket => bracket :: outer

@[simp] theorem Part.around_value (outer : List Bracket) : value.around outer = outer := rfl

/-- A number is skipped as it is spelled, up to what does not go on with it. -/
theorem skipFrom_number_spelled {s : Spelling} (h : SpellsNumber s bytes)
    (hp : p ∈ [.value, .firstItem]) (outer : List Bracket) (hrest : Ends rest) :
    skipFrom p outer (bytes ++ rest) = skipBehind outer rest := by
  obtain ⟨unsigned, hunsigned, rfl⟩ := h
  split
  · -- the sign, and then the digits
    have hminus : p.step '-'.toUInt8 outer = .go .minus outer :=
      step_of_start hp (by decide) (by decide) outer
    rw [List.cons_append, skipFrom, hminus]
    refine skipFrom_unsigned hunsigned (fun b hb => ?_) hrest
    rw [Place.step, if_pos hb]
    split <;> rfl
  · refine skipFrom_unsigned hunsigned (fun b hb => ?_) hrest
    have hclosing : b ≠ Bracket.array.closing := by
      rintro rfl
      exact absurd hb (by decide)
    rw [step_of_start hp (not_space_of_digit hb) hclosing, start_digit hb]

/-- The letters of a literal behind the first one. -/
theorem exists_start_literal {name : Text}
    (h : name ∈ ["null".toList, "true".toList, "false".toList]) :
    ∃ b letters, Text.toBytes name = b :: letters ∧ letters ≠ [] ∧ isSpaceByte b = false ∧
      b ≠ Bracket.array.closing ∧ ∀ outer, Move.start b outer = .go (.literal letters) outer := by
  simp only [List.mem_cons, List.not_mem_nil, or_false] at h
  rcases h with rfl | rfl | rfl <;>
    exact ⟨_, _, rfl, by decide, by decide, by decide, fun _ => rfl⟩

/-- A key with the blanks and the colon around it. -/
theorem passes_key {lead key before between : List UInt8} (hp : p ∈ [.firstKey, .key])
    (hlead : Blank lead) (hkey : IsQuoted key) (hbefore : Blank before) (hbetween : Blank between)
    (outer : List Bracket) :
    Passes p outer
      (lead ++ '"'.toUInt8 :: (key ++ '"'.toUInt8 :: (before ++ ':'.toUInt8 :: between)))
      .value outer := by
  simp only [List.mem_cons, List.not_mem_nil, or_false] at hp
  have hblank : p ∈ [Place.value, .firstItem, .firstKey, .key, .colon] := by
    rcases hp with rfl | rfl <;> simp
  have hquote : p.step '"'.toUInt8 outer = .go (.string true .plain) outer := by
    rcases hp with rfl | rfl <;> rfl
  have hcolon : Passes .colon outer (before ++ ':'.toUInt8 :: between) .value outer :=
    (passes_blank (by simp) hbefore).trans (.cons rfl (passes_blank (by simp) hbetween))
  exact (passes_blank hblank hlead).trans
    (.cons hquote ((passes_quoted true outer hkey).trans (.cons rfl hcolon)))

/-- **A stretch is passed over.**  What follows it is read behind a value, inside the same
    brackets. -/
theorem skipFrom_part {part : Part} (h : IsPart part bytes) (hp : p ∈ part.places)
    (outer : List Bracket) (hrest : Ends rest) :
    skipFrom p (part.around outer) (bytes ++ rest) = skipBehind (part.around outer) rest := by
  induction h generalizing p outer rest with
  | literal hname =>
    obtain ⟨b, letters, hbytes, hne, hspace, hclosing, hstart⟩ := exists_start_literal hname
    rw [Part.around_value, hbytes, List.cons_append, skipFrom, step_of_start hp hspace hclosing,
      hstart]
    exact skipFrom_literal hne outer rest
  | number h => exact skipFrom_number_spelled h hp outer hrest
  | string h =>
    have hquote : p.step '"'.toUInt8 outer = .go (.string false .plain) outer :=
      step_of_start hp (by decide) (by decide) outer
    have hinside := Passes.cons hquote (passes_quoted false outer h)
    rw [Part.around_value, ← List.cons_append, List.append_assoc, hinside]
    exact skipFrom_of_ended rfl rest
  | empty bracket hblanks =>
    have hinside : Passes bracket.first (bracket :: outer) _ bracket.first (bracket :: outer) :=
      passes_blank (by cases bracket <;> simp [Bracket.first]) hblanks
    have hclosing : bracket.first.step bracket.closing (bracket :: outer) = .ended outer := by
      cases bracket <;> rfl
    rw [Part.around_value, ← List.cons_append, List.append_assoc,
      Passes.cons (step_opening hp bracket outer) hinside]
    exact skipFrom_of_ended hclosing rest
  | @brackets bracket bytes _ ih =>
    have hfirst : bracket.first ∈ (Part.inside bracket).places := by
      cases bracket <;> simp [Part.places, Bracket.first]
    have hends : Ends (bracket.closing :: rest) := ends_cons (by cases bracket <;> decide) rest
    have hclosing : Place.step bracket.closing (bracket :: outer) .after = .ended outer := by
      cases bracket <;> rfl
    rw [Part.around_value, List.cons_append, List.append_assoc, skipFrom,
      step_opening hp bracket outer]
    exact (ih hfirst outer hends).trans (skipFrom_of_ended hclosing rest)
  -- blanks are passed on either side, inside the bracket of the list
  | element hbefore _ hafter ih =>
    simp only [Part.places, List.mem_cons, List.not_mem_nil, or_false] at hp
    have hvalue : p ∈ Part.value.places := by
      rcases hp with rfl | rfl <;> simp [Part.places]
    have hblank : p ∈ [Place.value, .firstItem, .firstKey, .key, .colon] := by
      rcases hp with rfl | rfl <;> simp
    rw [List.append_assoc, passes_blank hblank hbefore, List.append_assoc]
    exact (ih hvalue (.array :: outer) (ends_blank_append hafter hrest)).trans
      (passes_blank_after hafter rest)
  | @member lead key before between value after hlead hkey hbefore hbetween _ hafter ih =>
    have hvalue : Place.value ∈ Part.value.places := by simp [Part.places]
    -- the key with its colon, and the value, as two parts of the same text
    have hbytes : lead ++ ('"'.toUInt8 :: (key ++ ('"'.toUInt8 :: (before ++ (':'.toUInt8 ::
        (between ++ (value ++ after))))))) ++ rest
      = (lead ++ '"'.toUInt8 :: (key ++ '"'.toUInt8 :: (before ++ ':'.toUInt8 :: between)))
        ++ (value ++ (after ++ rest)) := by simp
    rw [hbytes, passes_key hp hlead hkey hbefore hbetween]
    exact (ih hvalue (.object :: outer) (ends_blank_append hafter hrest)).trans
      (passes_blank_after hafter rest)
  | @comma bracket front back _ _ ihfront ihback =>
    have hnext : bracket.next ∈ (Part.inside bracket).places := by
      cases bracket <;> simp [Part.places, Bracket.next]
    have hcomma : Place.step ','.toUInt8 (bracket :: outer) .after
        = .go bracket.next (bracket :: outer) := by
      cases bracket <;> rfl
    rw [List.append_assoc, List.cons_append, ihfront hp outer (ends_cons (by decide) _)]
    show skipFrom .after (bracket :: outer) (','.toUInt8 :: (back ++ rest)) = _
    rw [skipFrom, hcomma]
    exact ihback hnext outer hrest

/-- **A value is passed over**, in front of anything that does not go on with a number. -/
theorem IsValue.skipValue_append (h : IsValue bytes) (hrest : Ends rest) :
    skipValue (bytes ++ rest) = .ok rest :=
  skipFrom_part h (by simp [Part.places]) [] hrest

/-- A value on its own is skipped to its end. -/
theorem IsValue.skipValue_eq (h : IsValue bytes) : skipValue bytes = .ok [] := by
  have halone := h.skipValue_append ends_nil
  rwa [List.append_nil] at halone

end D0L.Json
