import D0L.Json.Reader
import D0L.Proofs.Json.Strings

namespace D0L.Json

/-!
# What readers take off their input

A reader of a value takes the text of the value off its input and leaves the rest, if no more of a
number can stand there.

* `Reader.Takes`, `Reader.Reads` — a reader takes a value off in some spellings, or one text,
  whatever stands behind it.
* `Reader.SkipsBlanks` — blanks in front make no difference.
* `Reader.run_colon_spelled` — the colon behind a key, with blanks around it.
* `Reader.run_textFor`, `Reader.reads_character` — strings are read in every spelling, and as they
  are written.
* `Reader.run_nextKey_first`, `Reader.run_nextKey_comma`, `Reader.run_nextKey_closing` — what is
  found where a member can start.
-/

/-- There is nothing but blanks. -/
def Blank (bytes : List UInt8) : Prop := ∀ b ∈ bytes, isSpaceByte b = true

instance (bytes : List UInt8) : Decidable (Blank bytes) :=
  decidable_of_iff (bytes.all isSpaceByte = true) List.all_eq_true

theorem blank_nil : Blank [] := fun _ h => nomatch h

namespace Reader

variable {ε α β : Type} {input rest : List UInt8} {items : List ε} {a : α} {fault : Fault}

/-! ### One reader after another -/

@[simp] theorem run_pure (a : α) (input : List UInt8) :
    (pure a : Reader ε α).run input = ⟨[], .ok (a, input)⟩ := rfl

@[simp] theorem run_emit (items : List ε) (input : List UInt8) :
    (emit items).run input = ⟨items, .ok ((), input)⟩ := rfl

@[simp] theorem run_advance (b : UInt8) (rest : List UInt8) :
    (advance : Reader ε Unit).run (b :: rest) = ⟨[], .ok ((), rest)⟩ := rfl

/-- **Two readers in a row:** if the first one succeeds, the second one reads what it has left, and
    emits behind it. -/
theorem run_bind_of_ok {r : Reader ε α} (h : r.run input = ⟨items, .ok (a, rest)⟩)
    (f : α → Reader ε β) :
    (r >>= f).run input = ⟨items ++ ((f a).run rest).emitted, ((f a).run rest).outcome⟩ := by
  show andThen r f input = _
  rw [andThen, h]

/-- A reader that emits nothing hands its input on. -/
theorem run_bind_of_silent {r : Reader ε α} (h : r.run input = ⟨[], .ok (a, rest)⟩)
    (f : α → Reader ε β) : (r >>= f).run input = (f a).run rest := by
  rw [run_bind_of_ok h]
  rfl

/-- If the first one fails, the second one does not read at all. -/
theorem run_bind_of_error {r : Reader ε α} (h : r.run input = ⟨items, .error fault⟩)
    (f : α → Reader ε β) : (r >>= f).run input = ⟨items, .error fault⟩ := by
  show andThen r f input = _
  rw [andThen, h]

/-! ### Blanks -/

/-- A reader for which blanks in front of its input make no difference. -/
def SkipsBlanks (r : Reader ε α) : Prop :=
  ∀ b rest, isSpaceByte b = true → r.run (b :: rest) = r.run rest

/-- Looking at the next byte skips the blanks in front of it. -/
theorem skipsBlanks_peek : SkipsBlanks (peek : Reader ε (Option UInt8)) := by
  intro b rest hb
  show (⟨[], .ok (((b :: rest).dropWhile isSpaceByte).head?, (b :: rest).dropWhile isSpaceByte)⟩ :
    Progress ε (Option UInt8)) = _
  rw [List.dropWhile_cons_of_pos hb]
  rfl

/-- What skips blanks at first skips blanks. -/
theorem SkipsBlanks.bind {r : Reader ε α} (h : SkipsBlanks r) (f : α → Reader ε β) :
    SkipsBlanks (r >>= f) := by
  intro b rest hb
  show andThen r f (b :: rest) = andThen r f rest
  rw [andThen, andThen, h b rest hb]

/-- Any number of blanks makes no difference, by induction on them. -/
theorem SkipsBlanks.run_append {r : Reader ε α} (h : SkipsBlanks r) {blanks : List UInt8}
    (hblanks : Blank blanks) (rest : List UInt8) :
    r.run (blanks ++ rest) = r.run rest := by
  induction blanks with
  | nil => rfl
  | cons b blanks ih =>
    rw [List.cons_append, h b _ (hblanks b (by simp)),
      ih fun c hc => hblanks c (List.mem_cons_of_mem _ hc)]

/-- A value may have blanks in front of it. -/
theorem skipsBlanks_wanting (wanted : Wanted) (take : Found → Option α) :
    SkipsBlanks (wanting wanted take : Reader ε α) :=
  skipsBlanks_peek.bind _

/-- So may a key, or the bracket that comes in its place. -/
theorem skipsBlanks_nextKey (first : Bool) : SkipsBlanks (nextKey first : Reader ε (Option Text)) :=
  skipsBlanks_peek.bind _

/-! ### Tokens -/

variable {b : UInt8}

/-- Looking at a byte that is not blank leaves it there. -/
theorem run_peek (hb : isSpaceByte b = false) (rest : List UInt8) :
    (peek : Reader ε (Option UInt8)).run (b :: rest) = ⟨[], .ok (some b, b :: rest)⟩ := by
  show (⟨[], .ok (((b :: rest).dropWhile isSpaceByte).head?, (b :: rest).dropWhile isSpaceByte)⟩ :
    Progress ε (Option UInt8)) = _
  rw [List.dropWhile_cons_of_neg (by simp [hb])]
  rfl

/-- A byte that is expected is taken. -/
theorem run_expect (hb : isSpaceByte b = false) (rest : List UInt8) :
    (expect b : Reader ε Unit).run (b :: rest) = ⟨[], .ok ((), rest)⟩ := by
  rw [expect, run_bind_of_silent (run_peek hb rest)]
  show (if b = b then advance else fail .malformed : Reader ε Unit).run (b :: rest) = _
  rw [if_pos rfl, run_advance]

/-- The colon between a key and its value, with blanks around it. -/
theorem run_colon_spelled {r : Reader ε α} (h : SkipsBlanks r) {before after : List UInt8}
    (hbefore : Blank before) (hafter : Blank after) (rest : List UInt8) :
    (colon >>= fun _ => r).run (before ++ ':'.toUInt8 :: (after ++ rest)) = r.run rest := by
  have hcolon : SkipsBlanks (colon : Reader ε Unit) := skipsBlanks_peek.bind _
  have htoken : (colon : Reader ε Unit).run (':'.toUInt8 :: (after ++ rest))
      = ⟨[], .ok ((), after ++ rest)⟩ := run_expect (by decide) _
  rw [(hcolon.bind _).run_append hbefore, run_bind_of_silent htoken, h.run_append hafter]

/-- In either layout there are only blanks behind the colon. -/
theorem toBytes_colon (layout : Layout) :
    ∃ blanks, Blank blanks ∧ Text.toBytes layout.colon = ':'.toUInt8 :: blanks := by
  cases layout with
  | compact => exact ⟨[], blank_nil, rfl⟩
  | indented => exact ⟨[' '.toUInt8], by decide, rfl⟩

/-- The colon between a key and its value, as it is written. -/
theorem run_colon_bind {r : Reader ε α} (h : SkipsBlanks r) (layout : Layout)
    (rest : List UInt8) :
    (colon >>= fun _ => r).run (Text.toBytes layout.colon ++ rest) = r.run rest := by
  obtain ⟨blanks, hblanks, hcolon⟩ := toBytes_colon layout
  rw [hcolon]
  exact run_colon_spelled h blank_nil hblanks rest

/-- A line break of a layout is blank, with its indentation. -/
theorem blank_lineBreak (layout : Layout) (depth : Nat) :
    Blank (Text.toBytes (layout.lineBreak depth)) := by
  cases layout with
  | compact => simp [Layout.lineBreak, Blank]
  | indented =>
    intro b hb
    rw [Layout.lineBreak, Text.toBytes_cons, List.mem_append] at hb
    rcases hb with hb | hb
    · obtain rfl : b = '\n'.toUInt8 := List.mem_singleton.1 hb
      decide
    · rw [Text.toBytes, List.mem_flatMap] at hb
      obtain ⟨c, hc, hb⟩ := hb
      rw [List.eq_of_mem_replicate hc] at hb
      obtain rfl : b = ' '.toUInt8 := List.mem_singleton.1 hb
      decide

/-! ### Values -/

/-- What can stand behind a value: nothing that would go on with a number. -/
def Ends (rest : List UInt8) : Prop :=
  ∀ b ∈ rest.head?, isDigitByte b = false ∧ b ≠ '.'.toUInt8 ∧ b ≠ 'e'.toUInt8 ∧ b ≠ 'E'.toUInt8

/-- A reader takes a value off its input in each of these spellings: it emits `items`, gives `a`,
    and leaves the rest. -/
def Takes (r : Reader ε α) (Spells : List UInt8 → Prop) (items : List ε) (a : α) : Prop :=
  ∀ ⦃bytes : List UInt8⦄, Spells bytes → ∀ rest, Ends rest →
    r.run (bytes ++ rest) = ⟨items, .ok (a, rest)⟩

/-- A reader takes a text off its input: it emits `items`, gives `a`, and leaves the rest. -/
def Reads (r : Reader ε α) (text : Text) (items : List ε) (a : α) : Prop :=
  ∀ rest, Ends rest → r.run (Text.toBytes text ++ rest) = ⟨items, .ok (a, rest)⟩

/-- The first byte tells whether a number could go on. -/
theorem ends_cons (hb : isDigitByte b = false ∧ b ≠ '.'.toUInt8 ∧ b ≠ 'e'.toUInt8 ∧ b ≠ 'E'.toUInt8)
    (rest : List UInt8) : Ends (b :: rest) := by
  intro c hc
  obtain rfl : b = c := Option.some.inj hc
  exact hb

/-- Blanks are no part of a number. -/
theorem ends_blank_append {blanks : List UInt8} (h : Blank blanks) (hrest : Ends rest) :
    Ends (blanks ++ rest) := by
  cases blanks with
  | nil => exact hrest
  | cons b blanks =>
    have hspace := h b (by simp)
    simp only [isSpaceByte, Bool.or_eq_true, decide_eq_true_eq] at hspace
    rcases hspace with ((rfl | rfl) | rfl) | rfl <;> exact ends_cons (by decide) _

theorem ends_nil : Ends [] := fun _ h => nomatch h

/-- No number goes on with blanks. -/
theorem ends_of_blank {blanks : List UInt8} (h : Blank blanks) : Ends blanks := by
  have hends := ends_blank_append h ends_nil
  rwa [List.append_nil] at hends

section Wanting

variable {wanted : Wanted} {take : Found → Option α} {kind : Found}

/-- A value of the wanted kind. -/
theorem run_wanting_of_take (hb : isSpaceByte b = false)
    (hfound : (found b : Reader ε Found).run (b :: input) = ⟨[], .ok (kind, rest)⟩)
    (htake : take kind = some a) :
    (wanting wanted take : Reader ε α).run (b :: input) = ⟨[], .ok (a, rest)⟩ := by
  rw [wanting, run_bind_of_silent (run_peek hb input)]
  show (found b >>= _ : Reader ε α).run (b :: input) = _
  rw [run_bind_of_silent hfound, htake]
  rfl

/-- A value of another kind. -/
theorem run_wanting_of_misfit (hb : isSpaceByte b = false)
    (hfound : (found b : Reader ε Found).run (b :: input) = ⟨[], .ok (kind, rest)⟩)
    (htake : take kind = none) :
    (wanting wanted take : Reader ε α).run (b :: input)
      = ⟨[], .error (.unfit (.kind kind wanted))⟩ := by
  rw [wanting, run_bind_of_silent (run_peek hb input)]
  show (found b >>= _ : Reader ε α).run (b :: input) = _
  rw [run_bind_of_silent hfound, htake]
  rfl

end Wanting

/-! ### Strings -/

section Spelled

variable {t : Text} {bytes : List UInt8}

/-- A string begins with its quote. -/
theorem run_peek_string (h : SpellsString t bytes) (rest : List UInt8) :
    (peek : Reader ε (Option UInt8)).run (bytes ++ rest)
      = ⟨[], .ok (some '"'.toUInt8, bytes ++ rest)⟩ := by
  obtain ⟨inner, _, rfl⟩ := h
  exact run_peek (by decide) _

/-- What follows a string, whose opening quote has not been passed yet, is given its text. -/
theorem run_string_bind (h : SpellsString t bytes) (rest : List UInt8) (f : Text → Reader ε α) :
    (advance >>= fun _ => scan stringBody >>= f).run (bytes ++ rest) = (f t).run rest := by
  obtain ⟨inner, hinner, rfl⟩ := h
  have hbody : (scan stringBody : Reader ε Text).run (inner ++ ['"'.toUInt8] ++ rest)
      = ⟨[], .ok (t, rest)⟩ := by
    rw [List.append_assoc]
    exact congrArg (Progress.mk []) (stringBody_spelled hinner)
  show (advance >>= fun _ => scan stringBody >>= f).run
    ('"'.toUInt8 :: (inner ++ ['"'.toUInt8] ++ rest)) = _
  rw [run_bind_of_silent (run_advance _ _), run_bind_of_silent hbody]

/-- A string is read in every spelling. -/
theorem run_textFor (h : SpellsString t bytes) (wanted : Wanted) (rest : List UInt8) :
    (textFor wanted : Reader ε Text).run (bytes ++ rest) = ⟨[], .ok (t, rest)⟩ := by
  have hfound : (found '"'.toUInt8 : Reader ε Found).run (bytes ++ rest)
      = ⟨[], .ok (.text t, rest)⟩ := run_string_bind h rest fun t => pure (Found.text t)
  obtain ⟨inner, _, rfl⟩ := h
  exact run_wanting_of_take (by decide) hfound rfl

end Spelled

/-- A text is read back from its string. -/
theorem reads_textFor (wanted : Wanted) (t : Text) :
    Reads (textFor wanted : Reader ε Text) (writeString t) [] t := fun rest _ =>
  run_textFor (spellsString_write t) wanted rest

/-- A character is read back from a string that holds it alone. -/
theorem reads_character (c : Char) : Reads (character : Reader ε Char) (writeString [c]) [] c := by
  intro rest hrest
  rw [character, run_bind_of_silent (reads_textFor .character [c] rest hrest)]
  rfl

/-- A character may have blanks in front of its string. -/
theorem skipsBlanks_character : SkipsBlanks (character : Reader ε Char) :=
  (skipsBlanks_wanting _ _).bind _

/-! ### Keys -/

/-- At the bracket that closes an object there is no next key. -/
theorem run_nextKey_closing (first : Bool) (rest : List UInt8) :
    (nextKey first : Reader ε (Option Text)).run (Bracket.object.closing :: rest)
      = ⟨[], .ok (none, rest)⟩ := by
  rw [nextKey, run_bind_of_silent (run_peek (by decide) rest)]
  rfl

/-- A key behind the bracket that opens the object. -/
theorem run_nextKey_first {key : Text} {bytes : List UInt8} (h : SpellsString key bytes)
    (rest : List UInt8) :
    (nextKey true : Reader ε (Option Text)).run (bytes ++ rest) = ⟨[], .ok (some key, rest)⟩ := by
  rw [nextKey, run_bind_of_silent (run_peek_string h rest)]
  exact run_string_bind h rest fun key => pure (some key)

/-- A key behind another member, with the comma between them. -/
theorem run_nextKey_comma {blanks : List UInt8} (hblanks : Blank blanks)
    {key : Text} {bytes : List UInt8} (h : SpellsString key bytes) (rest : List UInt8) :
    (nextKey false : Reader ε (Option Text)).run (','.toUInt8 :: (blanks ++ (bytes ++ rest)))
      = ⟨[], .ok (some key, rest)⟩ := by
  have hpeek : (peek : Reader ε (Option UInt8)).run (blanks ++ (bytes ++ rest))
      = ⟨[], .ok (some '"'.toUInt8, bytes ++ rest)⟩ :=
    (skipsBlanks_peek.run_append hblanks _).trans (run_peek_string h rest)
  rw [nextKey, run_bind_of_silent (run_peek (by decide) _)]
  show (advance >>= fun _ => peek >>= _ : Reader ε (Option Text)).run _ = _
  rw [run_bind_of_silent (run_advance _ _), run_bind_of_silent hpeek]
  exact run_string_bind h rest fun key => pure (some key)

end Reader

end D0L.Json
