import D0L.Proofs.Json.Reads

namespace D0L.Json

/-!
# What follows a value

What can be read of a text by itself can be read of it in front of anything that does not go on with
a number: the same is found, and what follows is left.

* `number_append`, `stringBody_append`, `skipFrom_append` — numbers, strings, and values that are
  passed over.
* `Reader.GoesOn` — what follows the input of a reader makes no difference to it.
* `Reader.goesOn_wanting`, `Reader.goesOn_ignored` — the readers of single values.
-/

open Reader (Ends)

variable {input left rest : List UInt8}

/-! ### Numbers -/

/-- A run of digits ends where it ended before, unless a digit follows. -/
theorem digitRun_append (hrest : ∀ b ∈ rest.head?, isDigitByte b = false) (input : List UInt8) :
    digitRun (input ++ rest) = ((digitRun input).1, (digitRun input).2 ++ rest) := by
  induction input with
  | nil =>
    cases rest with
    | nil => rfl
    | cons b rest => simp [digitRun, hrest b rfl]
  | cons b input ih =>
    simp only [digitRun, Prod.mk.injEq] at ih
    cases hb : isDigitByte b with
    | true =>
      simp only [digitRun, List.cons_append, List.takeWhile_cons, List.dropWhile_cons, hb, if_true,
        List.map_cons, ih.1, ih.2]
    | false => simp [digitRun, hb]

variable {digits : List Nat}

/-- Some digits are a run that is not empty. -/
theorem someDigits_eq_ok_iff :
    someDigits input = .ok (digits, left) ↔ digitRun input = (digits, left) ∧ digits ≠ [] := by
  rw [someDigits]
  obtain ⟨run, behind⟩ := digitRun input
  cases run with
  | nil => cases behind <;> simp +contextual [eq_comm]
  | cons d run =>
    simp only [Except.ok.injEq, Prod.mk.injEq]
    constructor
    · rintro ⟨rfl, rfl⟩
      simp
    · exact fun h => h.1

/-- The digits before the point begin with a zero only if that is all of them. -/
theorem wholeDigits_eq_ok_iff :
    wholeDigits input = .ok (digits, left) ↔
      someDigits input = .ok (digits, left) ∧ (digits.head? = some 0 → digits = [0]) := by
  rw [wholeDigits]
  cases someDigits input with
  | error fault => simp
  | ok found =>
    rcases found with ⟨_ | ⟨_ | n, _ | ⟨d, more⟩⟩, behind⟩ <;>
      simp +contextual [eq_comm]

/-- What follows some digits makes no difference, unless it is a digit. -/
theorem someDigits_append (h : someDigits input = .ok (digits, left))
    (hrest : ∀ b ∈ rest.head?, isDigitByte b = false) :
    someDigits (input ++ rest) = .ok (digits, left ++ rest) := by
  obtain ⟨hrun, hne⟩ := someDigits_eq_ok_iff.1 h
  rw [someDigits_eq_ok_iff, digitRun_append hrest, hrun]
  exact ⟨rfl, hne⟩

/-- What follows the digits before the point makes no difference, unless it is a digit. -/
theorem wholeDigits_append (h : wholeDigits input = .ok (digits, left))
    (hrest : ∀ b ∈ rest.head?, isDigitByte b = false) :
    wholeDigits (input ++ rest) = .ok (digits, left ++ rest) := by
  obtain ⟨hdigits, hzero⟩ := wholeDigits_eq_ok_iff.1 h
  exact wholeDigits_eq_ok_iff.2 ⟨someDigits_append hdigits hrest, hzero⟩

/-- What follows the digits behind the point makes no difference, unless a number goes on with it.
    -/
theorem fractionDigits_append (h : fractionDigits input = .ok (digits, left)) (hrest : Ends rest) :
    fractionDigits (input ++ rest) = .ok (digits, left ++ rest) := by
  -- with nothing to read there is no point, and none may follow
  cases input with
  | nil =>
    obtain ⟨rfl, rfl⟩ := Prod.mk.inj (Except.ok.inj h)
    cases rest with
    | nil => rfl
    | cons b rest => exact if_neg (hrest b rfl).2.1
  | cons b input =>
    rw [fractionDigits] at h
    rw [List.cons_append, fractionDigits]
    split at h
    · rename_i hpoint
      rw [if_pos hpoint]
      exact someDigits_append h fun b hb => (hrest b hb).1
    · rename_i hpoint
      rw [if_neg hpoint]
      obtain ⟨rfl, rfl⟩ := Prod.mk.inj (Except.ok.inj h)
      rfl

/-- Behind the letter `e`, there are a sign or none and the digits behind it, whatever follows. -/
theorem exponentPart_mark {b : UInt8} (hb : b = 'e'.toUInt8 ∨ b = 'E'.toUInt8) (c : UInt8)
    (input : List UInt8) :
    ∃ (negative : Bool) (front : List UInt8), ∀ more, exponentPart (b :: c :: (input ++ more))
      = (someDigits (front ++ more)).map fun found =>
        (some (if negative then -(ofDigits found.1 : Int) else ofDigits found.1), found.2) := by
  -- the byte behind the letter is a sign, or the first of the digits
  by_cases hminus : c = '-'.toUInt8
  · refine ⟨true, input, fun more => ?_⟩
    rw [exponentPart, if_pos hb]
    simp only [if_pos hminus]
    cases someDigits (input ++ more) <;> rfl
  by_cases hplus : c = '+'.toUInt8
  · refine ⟨false, input, fun more => ?_⟩
    rw [exponentPart, if_pos hb]
    simp only [if_neg hminus, if_pos hplus]
    cases someDigits (input ++ more) <;> rfl
  · refine ⟨false, c :: input, fun more => ?_⟩
    rw [exponentPart, if_pos hb]
    simp only [if_neg hminus, if_neg hplus, List.cons_append]
    cases someDigits (c :: (input ++ more)) <;> rfl

/-- What follows an exponent makes no difference, unless a number goes on with it. -/
theorem exponentPart_append {exponent : Option Int} (h : exponentPart input = .ok (exponent, left))
    (hrest : Ends rest) : exponentPart (input ++ rest) = .ok (exponent, left ++ rest) := by
  -- the letter and the byte behind it are looked at together, so there are three lengths
  match input with
  | [] =>
    obtain ⟨rfl, rfl⟩ := Prod.mk.inj (Except.ok.inj h)
    cases rest with
    | nil => rfl
    | cons b rest => exact if_neg (not_or.2 (hrest b rfl).2.2)
  | [b] =>
    rw [exponentPart] at h
    split at h
    · cases h
    · rename_i hmark
      obtain ⟨rfl, rfl⟩ := Prod.mk.inj (Except.ok.inj h)
      exact if_neg hmark
  | b :: c :: input =>
    by_cases hmark : b = 'e'.toUInt8 ∨ b = 'E'.toUInt8
    · obtain ⟨negative, front, heq⟩ := exponentPart_mark hmark c input
      -- the digits are those found with nothing behind them
      have halone := heq []
      rw [List.append_nil, List.append_nil, h] at halone
      rw [List.cons_append, List.cons_append, heq rest]
      cases hdigits : someDigits front with
      | error fault =>
        rw [hdigits] at halone
        cases halone
      | ok found =>
        rw [hdigits] at halone
        obtain ⟨rfl, rfl⟩ := Prod.mk.inj (Except.ok.inj halone)
        rw [someDigits_append hdigits fun b hb => (hrest b hb).1]
        rfl
    · rw [exponentPart, if_neg hmark] at h
      obtain ⟨rfl, rfl⟩ := Prod.mk.inj (Except.ok.inj h)
      exact if_neg hmark

/-- A computation in two parts succeeds only if both do. -/
theorem exists_of_bind_eq_ok {α β : Type} {x : Except Fault α} {f : α → Except Fault β} {b : β}
    (h : x >>= f = .ok b) : ∃ a, x = .ok a ∧ f a = .ok b := by
  cases x with
  | error fault => cases h
  | ok a => exact ⟨a, rfl, h⟩

/-- All parts of a number end where they ended before. -/
theorem spelling_append {negative : Bool} {s : Spelling}
    (h : spelling negative input = .ok (s, left)) (hrest : Ends rest) :
    spelling negative (input ++ rest) = .ok (s, left ++ rest) := by
  rw [spelling] at h ⊢
  obtain ⟨⟨whole, behindWhole⟩, hwhole, h⟩ := exists_of_bind_eq_ok h
  obtain ⟨⟨fraction, behindFraction⟩, hfraction, h⟩ := exists_of_bind_eq_ok h
  obtain ⟨⟨exponent, behindExponent⟩, hexponent, h⟩ := exists_of_bind_eq_ok h
  obtain ⟨rfl, rfl⟩ := Prod.mk.inj (Except.ok.inj h)
  rw [wholeDigits_append hwhole fun b hb => (hrest b hb).1]
  show (fractionDigits (behindWhole ++ rest) >>= _ : Except Fault (Spelling × List UInt8)) = _
  rw [fractionDigits_append hfraction hrest]
  show (exponentPart (behindFraction ++ rest) >>= _ : Except Fault (Spelling × List UInt8)) = _
  rw [exponentPart_append hexponent hrest]
  rfl

/-- So does the number that they spell. -/
theorem number_append {negative : Bool} {v : Number} (h : number negative input = .ok (v, left))
    (hrest : Ends rest) : number negative (input ++ rest) = .ok (v, left ++ rest) := by
  rw [number] at h ⊢
  obtain ⟨⟨s, behind⟩, hspelling, h⟩ := exists_of_bind_eq_ok h
  rw [spelling_append hspelling hrest]
  cases hvalue : s.value? with
  | none =>
    simp only [hvalue] at h
    cases h
  | some value =>
    simp only [hvalue] at h
    obtain ⟨rfl, rfl⟩ := Prod.mk.inj (Except.ok.inj h)
    simp only [bind, Except.bind, hvalue]
    rfl

/-! ### Strings -/

/-- A string ends at its quote, whatever follows. -/
theorem stringBytes_append {read bytes : List UInt8} {place : Inside}
    (h : stringBytes read place input = .ok (bytes, left)) (rest : List UInt8) :
    stringBytes read place (input ++ rest) = .ok (bytes, left ++ rest) := by
  induction input generalizing read place with
  | nil => cases h
  | cons b input ih =>
    rw [stringBytes] at h
    rw [List.cons_append, stringBytes]
    split at h
    · -- the closing quote
      rename_i hquote
      rw [if_pos hquote]
      obtain ⟨rfl, rfl⟩ := Prod.mk.inj (Except.ok.inj h)
      rfl
    · -- one more byte, which leads to the same place inside
      rename_i hinside
      rw [if_neg hinside]
      cases hstep : place.step b with
      | none =>
        rw [hstep] at h
        cases h
      | some next =>
        rw [hstep] at h
        exact ih h

/-- So what follows a string makes no difference. -/
theorem stringBody_append {t : Text} (h : stringBody input = .ok (t, left)) (rest : List UInt8) :
    stringBody (input ++ rest) = .ok (t, left ++ rest) := by
  rw [stringBody] at h ⊢
  cases hbytes : stringBytes [] .plain input with
  | error fault =>
    rw [hbytes] at h
    cases h
  | ok found =>
    obtain ⟨bytes, behind⟩ := found
    rw [hbytes] at h
    rw [stringBytes_append hbytes]
    cases htext : Text.ofBytes? bytes with
    | none =>
      simp only [htext] at h
      cases h
    | some text =>
      simp only [htext] at h ⊢
      obtain ⟨rfl, rfl⟩ := Prod.mk.inj (Except.ok.inj h)
      rfl

/-! ### Values that are passed over -/

/-- Only a number can end with the input, and nothing may be open around it. -/
theorem number_of_atEnd {place : Place} {brackets : List Bracket}
    (h : place.atEnd brackets = .ok left) :
    left = [] ∧ brackets = [] ∧ place ∈ [.zero, .whole, .fraction, .exponent] := by
  cases place
  case zero | whole | fraction | exponent =>
    rw [Place.atEnd] at h
    split at h
    · rename_i hnone
      exact ⟨(Except.ok.inj h).symm, hnone, by simp⟩
    · cases h
  all_goals cases h

/-- What is left behind a value inside some brackets.  With none open, no more is passed over. -/
def skipBehind : List Bracket → List UInt8 → Except Fault (List UInt8)
  | [], rest => .ok rest
  | bracket :: outer, rest => skipFrom .after (bracket :: outer) rest

/-- A number ends in front of what does not go on with it. -/
theorem skipFrom_number {place : Place} (hplace : place ∈ [.zero, .whole, .fraction, .exponent])
    (brackets : List Bracket) (hrest : Ends rest) :
    skipFrom place brackets rest = skipBehind brackets rest := by
  simp only [List.mem_cons, List.not_mem_nil, or_false] at hplace
  cases rest with
  | nil => cases brackets <;> rcases hplace with rfl | rfl | rfl | rfl <;> rfl
  | cons b rest =>
    obtain ⟨hdigit, hpoint, hsmall, hcapital⟩ := hrest b rfl
    -- none of these bytes goes on with a number, so the number is over before it
    have hstep : place.step b brackets = .following b brackets := by
      rcases hplace with rfl | rfl | rfl | rfl <;>
        simp [Place.step, Move.inNumber, hdigit, hpoint, hsmall, hcapital]
    rw [skipFrom, hstep]
    cases brackets <;> rfl

/-- A value that is skipped ends where its brackets and quotes do, or where its number does. -/
theorem skipFrom_append {place : Place} {brackets : List Bracket}
    (h : skipFrom place brackets input = .ok left) (hrest : Ends rest) :
    skipFrom place brackets (input ++ rest) = .ok (left ++ rest) := by
  induction input generalizing place brackets with
  | nil =>
    -- a number that has ended with the input ends in front of the rest
    obtain ⟨rfl, rfl, hplace⟩ := number_of_atEnd h
    exact skipFrom_number hplace [] hrest
  | cons b input ih =>
    rw [skipFrom] at h
    rw [List.cons_append, skipFrom]
    cases hmove : place.step b brackets with
    | go next inner =>
      rw [hmove] at h
      exact ih h
    | finish =>
      rw [hmove] at h
      obtain rfl := Except.ok.inj h
      rfl
    | stop =>
      rw [hmove] at h
      obtain rfl := Except.ok.inj h
      rfl
    | refuse =>
      rw [hmove] at h
      cases h

namespace Reader

variable {ε α β : Type}

/-! ### Readers -/

/-- What follows an input with the property `p` makes no difference to a reader, unless it goes on
    with a number. -/
def GoesOn (p : List UInt8 → Prop) (r : Reader ε α) : Prop :=
  ∀ ⦃input left rest : List UInt8⦄ ⦃items : List ε⦄ ⦃a : α⦄, p input → Ends rest →
    r.run input = ⟨items, .ok (a, left)⟩ → r.run (input ++ rest) = ⟨items, .ok (a, left ++ rest)⟩

variable {p : List UInt8 → Prop}

/-- Nothing is read, so nothing that follows matters. -/
theorem goesOn_pure (a : α) : GoesOn p (pure a : Reader ε α) := by
  intro input left rest items b _ _ h
  simp only [run_pure, Progress.mk.injEq, Except.ok.injEq, Prod.mk.injEq] at h
  obtain ⟨rfl, rfl, rfl⟩ := h
  rfl

/-- One byte is read, if there is one. -/
theorem goesOn_advance : GoesOn (fun input => input ≠ []) (advance : Reader ε Unit) := by
  intro input left rest items a hne _ h
  obtain ⟨b, input, rfl⟩ := List.exists_cons_of_ne_nil hne
  rw [run_advance] at h
  cases h
  rfl

/-- A scan goes on as what it scans for does. -/
theorem goesOn_scan {f : List UInt8 → Except Fault (α × List UInt8)}
    (h : ∀ ⦃input left rest : List UInt8⦄ ⦃a : α⦄, f input = .ok (a, left) → Ends rest →
      f (input ++ rest) = .ok (a, left ++ rest)) : GoesOn p (scan f : Reader ε α) := by
  intro input left rest items a _ hrest hrun
  obtain ⟨rfl, hf⟩ := Progress.mk.inj hrun
  exact congrArg (Progress.mk []) (h hf hrest)

/-- Two readers that succeed one after the other both succeed. -/
theorem exists_of_run_bind {r : Reader ε α} {f : α → Reader ε β} {items : List ε} {b : β}
    (h : (r >>= f).run input = ⟨items, .ok (b, left)⟩) :
    ∃ before after a behind, r.run input = ⟨before, .ok (a, behind)⟩ ∧
      (f a).run behind = ⟨after, .ok (b, left)⟩ ∧ items = before ++ after := by
  replace h : andThen r f input = _ := h
  rw [andThen] at h
  cases hr : r.run input with
  | mk before outcome =>
    rw [hr] at h
    cases outcome with
    | error fault => cases h
    | ok found =>
      obtain ⟨hitems, houtcome⟩ := Progress.mk.inj h
      refine ⟨before, ((f found.1).run found.2).emitted, found.1, found.2, rfl, ?_, hitems.symm⟩
      rw [← houtcome]

/-- Two readers in a row, the second one for any input that the first one leaves. -/
theorem GoesOn.bind {r : Reader ε α} {f : α → Reader ε β} (hr : GoesOn p r)
    (hf : ∀ a, GoesOn (fun _ => True) (f a)) : GoesOn p (r >>= f) := by
  intro input left rest items b hp hrest h
  obtain ⟨before, after, a, behind, hfirst, hsecond, rfl⟩ := exists_of_run_bind h
  rw [run_bind_of_ok (hr hp hrest hfirst), hf a trivial hrest hsecond]

/-- A value that nobody asks for ends by itself. -/
theorem goesOn_ignored : GoesOn (fun _ => True) (ignored : Reader ε Unit) :=
  goesOn_scan fun input left rest a h hrest => by
    cases hskip : skipValue input with
    | error fault =>
      rw [hskip] at h
      cases h
    | ok behind =>
      rw [hskip] at h
      cases h
      rw [skipValue, skipFrom_append hskip hrest]
      rfl

/-- The letters of a literal are all read, whatever follows them. -/
theorem letters_append {letters : List UInt8} {a : Unit}
    (h : Reader.letters letters input = .ok (a, left)) (rest : List UInt8) :
    Reader.letters letters (input ++ rest) = .ok (a, left ++ rest) := by
  induction letters generalizing input with
  | nil =>
    cases h
    rfl
  | cons c letters ih =>
    cases input with
    | nil => cases h
    | cons b input =>
      rw [Reader.letters] at h
      rw [List.cons_append, Reader.letters]
      split at h
      · rename_i hb
        rw [if_pos hb]
        exact ih h
      · cases h

/-- A literal ends with its last letter. -/
theorem goesOn_literal (name : Text) :
    GoesOn (fun input => input ≠ []) (literal name : Reader ε Unit) := by
  have hletters : GoesOn (fun _ => True)
      (scan (letters (Text.toBytes name.tail)) : Reader ε Unit) :=
    goesOn_scan fun _ _ rest _ h _ => letters_append h rest
  exact goesOn_advance.bind fun _ => hletters

/-- A number goes on until something else follows. -/
theorem goesOn_number (negative : Bool) :
    GoesOn p (scan (Json.number negative) >>= fun n => pure n.found : Reader ε Found) := by
  have hscan : GoesOn p (scan (Json.number negative) : Reader ε Number) :=
    goesOn_scan fun _ _ _ _ h hrest => number_append h hrest
  exact hscan.bind fun n => goesOn_pure n.found

/-- A string ends at its quote. -/
theorem goesOn_stringBody :
    GoesOn p (scan stringBody >>= fun t => pure (.text t) : Reader ε Found) := by
  have hscan : GoesOn p (scan stringBody : Reader ε Text) :=
    goesOn_scan fun _ _ rest _ h _ => stringBody_append h rest
  exact hscan.bind fun t => goesOn_pure (Found.text t)

/-- Whatever a value begins with, only a number could go on behind it. -/
theorem goesOn_found (b : UInt8) :
    GoesOn (fun input => input ≠ []) (found b : Reader ε Found) := by
  rw [found]
  repeat' split
  · exact (goesOn_literal _).bind fun _ => goesOn_pure Found.null
  · exact (goesOn_literal _).bind fun _ => goesOn_pure (Found.boolean true)
  · exact (goesOn_literal _).bind fun _ => goesOn_pure (Found.boolean false)
  · exact goesOn_advance.bind fun _ => goesOn_number true
  · exact goesOn_number false
  · exact goesOn_advance.bind fun _ => goesOn_stringBody
  · exact goesOn_pure Found.array
  · exact goesOn_pure Found.object
  · -- no value begins with any other byte
    intro input left rest items a _ _ h
    cases h

/-- A reader of a value finds the same value in front of anything that does not go on with it. -/
theorem goesOn_wanting (wanted : Wanted) (take : Found → Option α) :
    GoesOn (fun _ => True) (wanting wanted take : Reader ε α) := by
  intro input left rest items a _ hrest h
  have hskip : SkipsBlanks (wanting wanted take : Reader ε α) := skipsBlanks_wanting wanted take
  -- the blanks in front are taken first, by induction
  induction input with
  | nil => cases h
  | cons b input ih =>
    cases hb : isSpaceByte b with
    | true =>
      rw [hskip b _ hb] at h
      rw [List.cons_append, hskip b _ hb]
      exact ih h
    | false =>
      -- this is the first byte of the value, and looking at it takes nothing off
      rw [wanting, run_bind_of_silent (run_peek hb _)] at h
      rw [wanting, List.cons_append, run_bind_of_silent (run_peek hb _)]
      have hgoes (f : Found → Reader ε α) (hf : ∀ kind, GoesOn (fun _ => True) (f kind))
          (halone : (found b >>= f).run (b :: input) = ⟨items, .ok (a, left)⟩) :
          (found b >>= f).run (b :: (input ++ rest)) = ⟨items, .ok (a, left ++ rest)⟩ :=
        (goesOn_found b).bind hf (List.cons_ne_nil b input) hrest halone
      refine hgoes _ (fun kind => ?_) h
      cases take kind with
      | some a => exact goesOn_pure a
      | none =>
        intro input left rest items a _ _ h
        cases h

end Reader

end D0L.Json
