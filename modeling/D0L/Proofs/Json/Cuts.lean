import D0L.Proofs.Json.Objects

namespace D0L.Json

/-!
# Texts that are cut off

A text that lacks its last bytes makes its reader come to the end of the input too early.  Only a
number can end there without a fault, and then whatever is read behind it finds nothing left.

* `IsCutOf` — the first bytes of some bytes, but not all of them.
* `Reader.Breaks`, `Reader.Starves` — what a reader comes to on every cut of a text: the fault
  `cutShort`, or that or an end without a fault.
* `stringBytes_of_isCutOf` — strings end at their closing quote, and never before it.
* `Reader.StarvesMembers`, `Reader.breaks_members` — objects end at their closing bracket.
-/

/-! ### Cuts -/

/-- The first bytes of some bytes, without at least the last one. -/
def IsCutOf (cut bytes : List UInt8) : Prop := ∃ b left, bytes = cut ++ b :: left

variable {b : UInt8} {cut bytes more rest : List UInt8}

/-- Nothing at all is a cut of whatever has a byte. -/
theorem isCutOf_nil_left (h : bytes ≠ []) : IsCutOf [] bytes := by
  obtain ⟨b, left, rfl⟩ := List.exists_cons_of_ne_nil h
  exact ⟨b, left, rfl⟩

theorem not_isCutOf_nil : ¬ IsCutOf cut [] := by
  rintro ⟨b, left, h⟩
  exact absurd h.symm (by simp)

/-- A cut is a prefix that is not everything. -/
theorem isCutOf_of_isPrefix (h : cut <+: bytes) (hne : cut ≠ bytes) : IsCutOf cut bytes := by
  obtain ⟨left, rfl⟩ := h
  obtain ⟨b, left, rfl⟩ := List.exists_cons_of_ne_nil fun hnil : left = [] =>
    hne (by rw [hnil, List.append_nil])
  exact ⟨b, left, rfl⟩

/-- A cut has nothing, or the first byte and a cut of the others. -/
theorem IsCutOf.cases_cons (h : IsCutOf cut (b :: bytes)) :
    cut = [] ∨ ∃ c, cut = b :: c ∧ IsCutOf c bytes := by
  obtain ⟨d, left, h⟩ := h
  cases cut with
  | nil => exact .inl rfl
  | cons e c =>
    obtain ⟨rfl, hbytes⟩ := List.cons.inj h
    exact .inr ⟨c, rfl, d, left, hbytes⟩

/-- A cut of two texts is a cut of the first one, or has all of it and a cut of the second one. -/
theorem IsCutOf.cases_append (h : IsCutOf cut (bytes ++ more)) :
    IsCutOf cut bytes ∨ ∃ c, cut = bytes ++ c ∧ IsCutOf c more := by
  induction bytes generalizing cut with
  | nil => exact .inr ⟨cut, rfl, h⟩
  | cons b bytes ih =>
    rcases h.cases_cons with rfl | ⟨c, rfl, hc⟩
    · exact .inl (isCutOf_nil_left (List.cons_ne_nil b bytes))
    · -- what is behind the first byte is a cut of the first text, or reaches into the second one
      rcases ih hc with ⟨d, left, rfl⟩ | ⟨d, rfl, hd⟩
      · exact .inl ⟨d, left, rfl⟩
      · exact .inr ⟨d, rfl, hd⟩

/-- A cut of blanks has nothing but blanks. -/
theorem IsCutOf.forall_mem {p : UInt8 → Prop} (h : IsCutOf cut bytes) (hp : ∀ b ∈ bytes, p b) :
    ∀ b ∈ cut, p b := by
  obtain ⟨d, left, rfl⟩ := h
  exact fun b hb => hp b (List.mem_append_left _ hb)

/-! ### Strings -/

/-- A string that ends with its last byte does not end before it. -/
theorem stringBytes_of_isCutOf {read out : List UInt8} {place : Inside}
    (h : stringBytes read place bytes = .ok (out, [])) (hcut : IsCutOf cut bytes) :
    stringBytes read place cut = .error .cutShort := by
  induction cut generalizing read place bytes with
  | nil => rfl
  | cons b cut ih =>
    obtain ⟨d, left, rfl⟩ := hcut
    rw [List.cons_append, stringBytes] at h
    rw [stringBytes]
    split at h
    · -- the closing quote is not the last byte
      rename_i hquote
      have hleft : cut ++ d :: left = [] := (Prod.mk.inj (Except.ok.inj h)).2
      exact absurd hleft (by simp)
    · rename_i hinside
      rw [if_neg hinside]
      split at h
      · exact absurd h (by simp)
      · -- the byte belongs to the string, and the rest of it is cut off all the same
        exact ih h ⟨d, left, rfl⟩

/-- A string that is cut off has no quote at its end, so the reader comes to the end of the input.
    -/
theorem stringBody_of_isCutOf {t : Text} (h : stringBody bytes = .ok (t, []))
    (hcut : IsCutOf cut bytes) : stringBody cut = .error .cutShort := by
  rw [stringBody] at h
  split at h
  · exact absurd h (by simp)
  · rename_i out left hbytes
    -- what is left behind the string does not depend on its text
    have hnone : left = [] := by
      split at h
      · exact (Prod.mk.inj (Except.ok.inj h)).2
      · exact absurd h (by simp)
    rw [hnone] at hbytes
    rw [stringBody, stringBytes_of_isCutOf hbytes hcut]

/-- A written string, behind its opening quote, does not end before its closing quote. -/
theorem stringBody_write_of_isCutOf {t : Text}
    (hcut : IsCutOf cut (Text.toBytes (t.flatMap writeChar ++ ['"']))) :
    stringBody cut = .error .cutShort := by
  have hwritten : stringBody (Text.toBytes (t.flatMap writeChar ++ ['"']) ++ []) = .ok (t, []) :=
    stringBody_write t
  rw [List.append_nil] at hwritten
  exact stringBody_of_isCutOf hwritten hcut

namespace Reader

variable {ε α β σ : Type} {r : Reader ε α} {input : List UInt8} {fault : Fault} {a : α}

/-! ### What a reader comes to -/

/-- On every cut of the text, the reader finds that the input ends too early. -/
def Breaks (r : Reader ε α) (bytes : List UInt8) : Prop :=
  ∀ cut, IsCutOf cut bytes → (r.run cut).outcome = .error .cutShort

/-- On every cut of the text, the reader finds that the input ends too early, or takes all of it. -/
def Starves (r : Reader ε α) (bytes : List UInt8) : Prop :=
  ∀ cut, IsCutOf cut bytes →
    (r.run cut).outcome = .error .cutShort ∨ ∃ a, (r.run cut).outcome = .ok (a, [])

/-- A reader that breaks on every cut takes none of them. -/
theorem Breaks.starves (h : Breaks r bytes) : Starves r bytes := fun cut hcut => .inl (h cut hcut)

/-- Two readers in a row fail if the first one does. -/
theorem outcome_bind_of_error (h : (r.run input).outcome = .error fault) (f : α → Reader ε β) :
    ((r >>= f).run input).outcome = .error fault := by
  have hrun : r.run input = ⟨(r.run input).emitted, .error fault⟩ := by rw [← h]
  rw [run_bind_of_error hrun]

/-- If the first of two readers succeeds, it is up to the second one what comes of them. -/
theorem outcome_bind_of_ok (h : (r.run input).outcome = .ok (a, rest)) (f : α → Reader ε β) :
    ((r >>= f).run input).outcome = ((f a).run rest).outcome := by
  have hrun : r.run input = ⟨(r.run input).emitted, .ok (a, rest)⟩ := by rw [← h]
  rw [run_bind_of_ok hrun]

/-- What would follow is never reached. -/
theorem Breaks.bind (h : Breaks r bytes) (f : α → Reader ε β) : Breaks (r >>= f) bytes :=
  fun cut hcut => outcome_bind_of_error (h cut hcut) f

/-- What is done with the value makes no difference, if it reads no more. -/
theorem Starves.bind_pure (h : Starves r bytes) (f : α → β) :
    Starves (r >>= fun a => pure (f a)) bytes := by
  intro cut hcut
  rcases h cut hcut with herror | ⟨a, ha⟩
  · exact .inl (outcome_bind_of_error herror _)
  · exact .inr ⟨f a, outcome_bind_of_ok ha _⟩

/-! ### Tokens -/

theorem outcome_expect_nil (b : UInt8) :
    ((expect b : Reader ε Unit).run []).outcome = .error .cutShort := rfl

theorem outcome_wanting_nil (wanted : Wanted) (take : Found → Option α) :
    ((wanting wanted take : Reader ε α).run []).outcome = .error .cutShort := rfl

theorem outcome_nextKey_nil (first : Bool) :
    ((nextKey first : Reader ε (Option Text)).run []).outcome = .error .cutShort := rfl

/-- An object that ends before its bracket ends too early, however much fuel there is. -/
theorem outcome_membersFrom_nil (member : σ → Text → Reader ε σ) (fuel : Nat) (first : Bool)
    (s : σ) : ((membersFrom member fuel first s).run []).outcome = .error .cutShort := by
  cases fuel with
  | zero => rfl
  | succ fuel => exact outcome_bind_of_error (outcome_nextKey_nil first) _

/-- A fault inside a value is the fault of the value, whatever is wanted there. -/
theorem outcome_wanting_of_error {wanted : Wanted} {take : Found → Option α}
    (hb : isSpaceByte b = false)
    (h : ((found b : Reader ε Found).run (b :: input)).outcome = .error fault) :
    ((wanting wanted take : Reader ε α).run (b :: input)).outcome = .error fault := by
  rw [wanting, run_bind_of_silent (run_peek hb input)]
  exact outcome_bind_of_error h _

/-- The colon between a key and its value, in either layout. -/
theorem starves_colon (hskip : SkipsBlanks r) (hempty : (r.run []).outcome = .error .cutShort)
    (h : Starves r bytes) (layout : Layout) :
    Starves (colon >>= fun _ => r) (Text.toBytes layout.colon ++ bytes) := by
  intro cut hcut
  have hcolon (c : List UInt8) :
      (colon >>= fun _ => r).run (':'.toUInt8 :: c) = r.run c :=
    run_bind_of_silent (run_expect (by decide) c) _
  -- the reader of the value takes the blank behind the colon; there is one in one layout only
  cases layout with
  | compact =>
    have hcut : IsCutOf cut (':'.toUInt8 :: bytes) := hcut
    rcases hcut.cases_cons with rfl | ⟨c, rfl, hc⟩
    · exact .inl (outcome_bind_of_error (outcome_expect_nil _) _)
    · rw [hcolon]
      exact h c hc
  | indented =>
    have hcut : IsCutOf cut (':'.toUInt8 :: ' '.toUInt8 :: bytes) := hcut
    rcases hcut.cases_cons with rfl | ⟨c, rfl, hc⟩
    · exact .inl (outcome_bind_of_error (outcome_expect_nil _) _)
    · rw [hcolon]
      rcases hc.cases_cons with rfl | ⟨d, rfl, hd⟩
      · exact .inl hempty
      · rw [hskip _ d (by decide)]
        exact h d hd

/-! ### Strings -/

variable {t key : Text} {layout : Layout}

theorem toBytes_writeString (t : Text) : Text.toBytes (writeString t)
    = '"'.toUInt8 :: Text.toBytes (t.flatMap writeChar ++ ['"']) := rfl

/-- A string is cut short wherever the cut is behind its first quote. -/
theorem outcome_string_of_isCutOf (f : Text → Reader ε α)
    (hcut : IsCutOf cut (Text.toBytes (t.flatMap writeChar ++ ['"']))) :
    ((advance >>= fun _ => scan stringBody >>= f).run ('"'.toUInt8 :: cut)).outcome
      = .error .cutShort := by
  have hbody : ((scan stringBody : Reader ε Text).run cut).outcome = .error .cutShort :=
    stringBody_write_of_isCutOf hcut
  rw [run_bind_of_silent (run_advance _ cut)]
  exact outcome_bind_of_error hbody f

/-- A string has no cut that is a value. -/
theorem breaks_textFor (wanted : Wanted) (t : Text) :
    Breaks (textFor wanted : Reader ε Text) (Text.toBytes (writeString t)) := by
  intro cut hcut
  rw [toBytes_writeString] at hcut
  rcases hcut.cases_cons with rfl | ⟨c, rfl, hc⟩
  · exact outcome_wanting_nil _ _
  · exact outcome_wanting_of_error (by decide)
      (outcome_string_of_isCutOf (fun t => pure (Found.text t)) hc)

/-! ### Keys -/

/-- A key behind the bracket that opens the object. -/
theorem breaks_nextKey_first (layout : Layout) (depth : Nat) (key : Text) :
    Breaks (nextKey true : Reader ε (Option Text))
      (Text.toBytes (layout.lineBreak depth) ++ Text.toBytes (writeString key)) := by
  have hblanks := blank_lineBreak layout depth
  rw [toBytes_writeString]
  intro cut hcut
  -- within the blanks there is nothing to take; behind them the key itself is cut off
  rcases hcut.cases_append with hcut | ⟨c, rfl, hc⟩
  · have hskip := (skipsBlanks_nextKey (ε := ε) true).run_append (hcut.forall_mem hblanks) []
    rw [List.append_nil] at hskip
    rw [hskip, outcome_nextKey_nil]
  · rw [(skipsBlanks_nextKey true).run_append hblanks]
    rcases hc.cases_cons with rfl | ⟨d, rfl, hd⟩
    · exact outcome_nextKey_nil true
    · rw [nextKey, run_bind_of_silent (run_peek (by decide) d)]
      exact outcome_string_of_isCutOf (fun key => pure (some key)) hd

/-- A key behind another member, with the comma between them. -/
theorem breaks_nextKey_comma (layout : Layout) (depth : Nat) (key : Text) :
    Breaks (nextKey false : Reader ε (Option Text))
      (','.toUInt8 :: (Text.toBytes (layout.lineBreak depth)
        ++ Text.toBytes (writeString key))) := by
  have hblanks := blank_lineBreak layout depth
  rw [toBytes_writeString]
  intro cut hcut
  rcases hcut.cases_cons with rfl | ⟨c, rfl, hc⟩
  · exact outcome_nextKey_nil false
  rw [nextKey, run_bind_of_silent (run_peek (by decide) c)]
  show ((advance >>= fun _ => peek >>= _ : Reader ε (Option Text)).run _).outcome = _
  rw [run_bind_of_silent (run_advance _ c)]
  -- within the blanks behind the comma, or in the key
  rcases hc.cases_append with hc | ⟨d, rfl, hd⟩
  · have hpeek : (peek : Reader ε (Option UInt8)).run c = ⟨[], .ok (none, [])⟩ := by
      have hskip := skipsBlanks_peek (ε := ε).run_append (hc.forall_mem hblanks) []
      rwa [List.append_nil] at hskip
    rw [run_bind_of_silent hpeek]
    rfl
  · rcases hd.cases_cons with rfl | ⟨e, rfl, he⟩
    · have hpeek : (peek : Reader ε (Option UInt8)).run
          (Text.toBytes (layout.lineBreak depth) ++ []) = ⟨[], .ok (none, [])⟩ :=
        skipsBlanks_peek.run_append hblanks []
      rw [run_bind_of_silent hpeek]
      rfl
    · have hpeek : (peek : Reader ε (Option UInt8)).run
          (Text.toBytes (layout.lineBreak depth) ++ ('"'.toUInt8 :: e))
            = ⟨[], .ok (some '"'.toUInt8, '"'.toUInt8 :: e)⟩ :=
        (skipsBlanks_peek.run_append hblanks _).trans (run_peek (by decide) e)
      rw [run_bind_of_silent hpeek]
      exact outcome_string_of_isCutOf (fun key => pure (some key)) he

/-! ### Members -/

variable {member : σ → Text → Reader ε σ} {s : σ} {entries : List (Text × Text)}

/-- Each member is read, and starves on the cuts of its text. -/
inductive StarvesMembers (member : σ → Text → Reader ε σ) (layout : Layout) :
    σ → List (Text × Text) → Prop
  | nil (s : σ) : StarvesMembers member layout s []
  | cons {s t : σ} {key value : Text} {entries : List (Text × Text)} {items : List ε}
      (reads : Reads (member s key) (layout.colon ++ value) items t)
      (starves : Starves (member s key) (Text.toBytes (layout.colon ++ value)))
      (tail : StarvesMembers member layout t entries) :
      StarvesMembers member layout s ((key, value) :: entries)

/-- A number does not go on with the first bytes of something that ends it. -/
theorem ends_of_isCutOf (h : IsCutOf cut bytes) (hends : Ends bytes) : Ends cut := by
  obtain ⟨d, left, rfl⟩ := h
  intro b hb
  refine hends b ?_
  rw [List.head?_append, Option.mem_def.1 hb]
  rfl

/-- A member is cut off, or the members behind it are. -/
theorem breaks_membersFrom_of_member {first : Bool} {fuel : Nat} {value : Text} {items : List ε}
    {keyBytes tailBytes : List UInt8} {t : σ}
    (hkey : Breaks (nextKey first : Reader ε (Option Text)) keyBytes)
    (hreadsKey : ∀ c, (nextKey first : Reader ε (Option Text)).run (keyBytes ++ c)
      = ⟨[], .ok (some key, c)⟩)
    (hreads : Reads (member s key) (layout.colon ++ value) items t)
    (hstarves : Starves (member s key) (Text.toBytes (layout.colon ++ value)))
    (hends : Ends tailBytes) (htail : Breaks (membersFrom member fuel false t) tailBytes) :
    Breaks (membersFrom member (fuel + 1) first s)
      (keyBytes ++ (Text.toBytes (layout.colon ++ value) ++ tailBytes)) := by
  intro cut hcut
  show ((nextKey first >>= _ : Reader ε σ).run cut).outcome = _
  -- the cut is within the key, within the value, or in a later member
  rcases hcut.cases_append with hcut | ⟨c, rfl, hc⟩
  · exact outcome_bind_of_error (hkey cut hcut) _
  rw [run_bind_of_silent (hreadsKey c)]
  show ((member s key >>= _ : Reader ε σ).run c).outcome = _
  rcases hc.cases_append with hc | ⟨d, rfl, hd⟩
  · rcases hstarves c hc with herror | ⟨u, hu⟩
    · exact outcome_bind_of_error herror _
    · -- the value seems to be whole, but there is nothing behind it
      rw [outcome_bind_of_ok hu]
      exact outcome_membersFrom_nil member fuel false u
  · rw [run_bind_of_ok (hreads d (ends_of_isCutOf hd hends))]
    exact htail d hd

/-- The members behind the first one, up to the closing bracket. -/
theorem breaks_membersFrom_writeTail (h : StarvesMembers member layout s entries)
    (fuel depth : Nat) :
    Breaks (membersFrom member fuel false s) (Text.toBytes (writeTail layout depth entries)) := by
  induction h generalizing fuel with
  | nil s =>
    intro cut hcut
    cases fuel with
    | zero => rfl
    | succ fuel =>
      -- there is nothing but blanks before the bracket
      have hblanks : ∀ b ∈ cut, isSpaceByte b = true := by
        have hbytes : Text.toBytes (writeTail layout depth [])
            = Text.toBytes (layout.lineBreak depth) ++ ['}'.toUInt8] := by
          rw [writeTail, List.flatMap_nil, List.nil_append, Text.toBytes_append]
          rfl
        rw [hbytes] at hcut
        rcases hcut.cases_append with hcut | ⟨c, rfl, hc⟩
        · exact hcut.forall_mem (blank_lineBreak layout depth)
        · rcases hc.cases_cons with rfl | ⟨d, rfl, hd⟩
          · rw [List.append_nil]
            exact blank_lineBreak layout depth
          · exact absurd hd not_isCutOf_nil
      have hskip := (skipsBlanks_nextKey (ε := ε) false).run_append hblanks []
      rw [List.append_nil] at hskip
      refine outcome_bind_of_error ?_ _
      rw [hskip, outcome_nextKey_nil]
  -- the comma and the key behind it are cut as the first key is; the rest is the induction
  | @cons s t key value entries items reads starves tail ih =>
    cases fuel with
    | zero => exact fun cut _ => rfl
    | succ fuel =>
      have hends := ends_writeTail layout depth entries []
      rw [List.append_nil] at hends
      have hbytes := toBytes_writeTail_cons layout depth key value entries []
      rw [toBytes_writeMember, List.append_nil, List.append_nil, ← List.append_assoc,
        ← List.cons_append] at hbytes
      rw [hbytes]
      refine breaks_membersFrom_of_member (breaks_nextKey_comma layout (depth + 1) key)
        (fun c => ?_) reads starves hends (ih fuel)
      rw [List.cons_append, List.append_assoc]
      exact run_nextKey_comma (blank_lineBreak layout (depth + 1)) (spellsString_write key) c

/-- **An object ends at its closing bracket.**  Behind its opening bracket it can be cut anywhere,
    and the input ends too early. -/
theorem breaks_members (h : StarvesMembers member layout s entries) (depth : Nat) :
    Breaks (members member s) (Text.toBytes (writeBody layout depth entries)) := by
  intro cut hcut
  show ((membersFrom member (cut.length + 1) true s).run cut).outcome = _
  cases h with
  -- an object without members has its closing bracket only
  | nil =>
    have hcut : IsCutOf cut ['}'.toUInt8] := hcut
    rcases hcut.cases_cons with rfl | ⟨d, rfl, hd⟩
    · exact outcome_membersFrom_nil member _ true s
    · exact absurd hd not_isCutOf_nil
  | @cons s t key value entries items reads starves tail =>
    have hends := ends_writeTail layout depth entries []
    rw [List.append_nil] at hends
    have hbytes : Text.toBytes (writeBody layout depth ((key, value) :: entries))
        = Text.toBytes (layout.lineBreak (depth + 1)) ++ Text.toBytes (writeString key)
          ++ (Text.toBytes (layout.colon ++ value)
            ++ Text.toBytes (writeTail layout depth entries)) := by
      rw [writeBody, Text.toBytes_append, Text.toBytes_append, toBytes_writeMember,
        List.append_assoc]
    rw [hbytes] at hcut
    refine breaks_membersFrom_of_member (breaks_nextKey_first layout (depth + 1) key)
      (fun c => ?_) reads starves hends (breaks_membersFrom_writeTail tail _ depth) cut hcut
    rw [List.append_assoc,
      (skipsBlanks_nextKey true).run_append (blank_lineBreak layout (depth + 1))]
    exact run_nextKey_first (spellsString_write key) c

/-! ### Whole values -/

/-- A structure that is written as an object ends at its closing bracket. -/
theorem breaks_structured {wanted : Wanted} {object array : Reader ε α}
    (h : Breaks object bytes) :
    Breaks (structured wanted object array) ('{'.toUInt8 :: bytes) := by
  intro cut hcut
  rcases hcut.cases_cons with rfl | ⟨c, rfl, hc⟩
  · rfl
  · rw [run_structured_object]
    exact h c hc

end Reader

end D0L.Json
