import D0L.Proofs.CollectedRules
import D0L.Proofs.Json.Following

namespace D0L

/-!
# Schemes and grammars are read as they are spelled

The members of an object become productions in the order in which they are spelled, however that is
done.  A key that is no symbol ends the reading, behind the productions in front of it.  The rules
of a grammar are read as those of a scheme are, whatever other members there are.  Those in front of
the rules are read without a report, and so is all that follows.

* `Document.SpellsScheme` — the documents with the members of a scheme;
  `Document.read_scheme_spelled` and `Document.read_scheme_of_key` are about reading them.
* `Document.Precedes` — the members that can stand in front of the rules.
* `Document.Follows` — a reading that is, up to what is not reported, the reading of some rules.
* `Document.SpellsRules` — the documents with some rules.
-/

open Json Json.Reader

namespace Document

/-! ### Schemes -/

section Schemes

variable {bytes object rest after : List UInt8} {ps : List Production} {key w : Text}
  {more : List (Text × Text)}

/-- A text that has not one character is no symbol. -/
theorem run_only (hkey : key.length ≠ 1) (input : List UInt8) :
    (Json.Reader.only key : Reader Char).run input
      = ⟨[], .error (.unfit (.notOneCharacter key))⟩ := by
  unfold Json.Reader.only
  split
  · exact absurd rfl hkey
  · rfl

/-- A key that is no symbol ends the reading. -/
theorem run_scheme_of_key (hkey : key.length ≠ 1)
    (h : SpellsObject SpellsString (ps.map Production.entry ++ (key, w) :: more) object)
    (rest : List UInt8) :
    scheme.run (object ++ rest)
      = ⟨(Scheme.collect ps).events, .error (.unfit (.notOneCharacter key))⟩ := by
  obtain ⟨body, blanks, hmembers, hblank, rfl⟩ := h
  simp only [List.cons_append, List.append_assoc, List.nil_append]
  rw [run_scheme]
  exact run_members_of_fault (takesMembers_definition .empty ps) hmembers
    (fun input => run_bind_of_error (run_only hkey input) _) _

/-- The documents with the members of a scheme. -/
def SpellsScheme (entries : List (Text × Text)) (bytes : List UInt8) : Prop :=
  ∃ before object after, Blank before ∧ SpellsObject SpellsString entries object ∧ Blank after ∧
    bytes = before ++ (object ++ after)

/-- **Reading a scheme is collecting its members,** in the order in which they are spelled. -/
theorem read_scheme_spelled (h : SpellsScheme (ps.map Production.entry) bytes) :
    read scheme bytes = ExceptT.lift (Scheme.collect ps) := by
  obtain ⟨before, object, after, hbefore, hobject, hafter, rfl⟩ := h
  have hrun := (skipsBlanks_scheme.run_append hbefore _).trans (run_scheme_spelled hobject after)
  rw [read_of_run hrun hafter]
  exact Attempt.eq_of_parts (Attempt.events_lift _).symm rfl

/-- **A key that is no symbol ends the reading,** behind the report on the members in front of it.
    -/
theorem read_scheme_of_key (hkey : key.length ≠ 1)
    (h : SpellsScheme (ps.map Production.entry ++ (key, w) :: more) bytes) :
    read scheme bytes = ExceptT.mk
      ⟨(Scheme.collect ps).events, .error (.document (.unfit (.notOneCharacter key)))⟩ := by
  obtain ⟨before, object, after, hbefore, hobject, hafter, rfl⟩ := h
  refine read_of_error ?_
  rw [skipsBlanks_scheme.run_append hbefore, run_scheme_of_key hkey hobject]

end Schemes

variable {bytes object : List UInt8}

/-! ### In front of the rules of a grammar -/

/-- The members that can stand in front of the rules of a grammar, with their values as they are
    spelled: one angle, if there has been none before, one start word, and any others that nobody
    asks for. -/
inductive Precedes : (angle start : Bool) → List (Text × List UInt8) → Prop
  | nil {angle start : Bool} : Precedes angle start []
  | angle {start : Bool} {value : List UInt8} {x : Binary64} {ms : List (Text × List UInt8)}
      (h : ((Json.Reader.number : Reader Binary64).run value).outcome = .ok (x, []))
      (more : Precedes true start ms) : Precedes false start (("angle".toList, value) :: ms)
  | start {angle : Bool} {value : List UInt8} {w : Word} {ms : List (Text × List UInt8)}
      (h : (word.run value).outcome = .ok (w, []))
      (more : Precedes angle true ms) : Precedes angle false (("axiom".toList, value) :: ms)
  | other {angle start : Bool} {key : Text} {value : List UInt8} {ms : List (Text × List UInt8)}
      (hkey : key ∉ ["angle".toList, "axiom".toList, "rules".toList])
      (h : skipValue value = .ok []) (more : Precedes angle start ms) :
      Precedes angle start ((key, value) :: ms)

/-- A reader that emits nothing has done nothing but what comes of it. -/
theorem run_of_outcome {α : Type} {r : Reader α} {Q : α → Prop} (hr : Quiet r Q)
    {outcome : Except Fault (α × List UInt8)} (h : (r.run bytes).outcome = outcome) :
    r.run bytes = ⟨[], outcome⟩ := by
  rw [← h, ← (hr bytes).1]

/-- A value that is read where it stands alone is read in front of another member, too. -/
theorem takes_of_outcome {γ : Type} {wanted : Wanted} {take : Found → Option γ} {a : γ}
    {value : List UInt8}
    (h : ((Json.Reader.wanting wanted take : Reader γ).run value).outcome = .ok (a, [])) :
    Takes (Json.Reader.wanting wanted take : Reader γ) (fun bytes => bytes = value) [] a := by
  rintro bytes rfl rest hrest
  exact goesOn_wanting _ _ trivial hrest (run_of_outcome (quiet_wanting _ _) h)

/-- A value that nobody asks for may have blanks in front of it. -/
theorem skipsBlanks_ignored : SkipsBlanks (Json.Reader.ignored : Reader Unit) := by
  intro b rest hb
  have hskip : skipValue (b :: rest) = skipValue rest := by
    rw [skipValue, skipFrom, Place.step, if_pos hb]
    rfl
  show (⟨[], (skipValue (b :: rest)).map fun rest => ((), rest)⟩ : Progress Event Unit) = _
  rw [hskip]
  rfl

/-- A member that nobody asks for leaves everything as it is. -/
theorem takesMember_other {key : Text} {value : List UInt8} (parts : GrammarParts)
    (hkey : key ∉ ["angle".toList, "axiom".toList, "rules".toList])
    (h : skipValue value = .ok []) :
    TakesMember (grammarMember parts key) (fun bytes => bytes = value) [] parts := by
  intro before after bytes hbefore hafter hbytes rest hrest
  subst hbytes
  -- the value alone is skipped to its end, and then so is the value in front of the rest
  have halone : (Json.Reader.ignored : Reader Unit).run bytes = ⟨[], .ok ((), [])⟩ := by
    show (⟨[], (skipValue bytes).map fun rest => ((), rest)⟩ : Progress Event Unit) = _
    rw [h]
    rfl
  have hignored : (Json.Reader.ignored : Reader Unit).run (bytes ++ rest) = ⟨[], .ok ((), rest)⟩ :=
    goesOn_ignored trivial hrest halone
  have hother : other.run (before ++ ':'.toUInt8 :: (after ++ (bytes ++ rest)))
      = ⟨[], .ok ((), rest)⟩ := by
    rw [other, run_colon_spelled skipsBlanks_ignored hbefore hafter, hignored]
  simp only [List.mem_cons, List.not_mem_nil, or_false, not_or] at hkey
  rw [grammarMember, if_neg hkey.1, if_neg hkey.2.1, if_neg hkey.2.2, run_bind_of_silent hother,
    run_pure]

/-- Members in front of the rules are read without a report, and without rules. -/
theorem exists_takesMembers {angle start : Bool} {ms : List (Text × List UInt8)}
    (h : Precedes angle start ms) (parts : GrammarParts) (hangle : parts.angle.isSome = angle)
    (hstart : parts.start.isSome = start) :
    ∃ last : GrammarParts, last.scheme = parts.scheme ∧
      TakesMembers grammarMember (fun value bytes => bytes = value) parts ms [] last := by
  -- `angle` and `start` keep track of what has been read, since neither may come again
  induction h generalizing parts with
  | nil => exact ⟨parts, rfl, .nil parts⟩
  | @angle start value x ms h _ ih =>
    have hnone : parts.angle = none := Option.not_isSome_iff_eq_none.1 (by simp [hangle])
    have hvalue : Takes (Json.Reader.number : Reader Binary64) (fun bytes => bytes = value) [] x :=
      takes_of_outcome h
    obtain ⟨last, hscheme, htail⟩ := ih { parts with angle := some x } rfl hstart
    exact ⟨last, hscheme, .cons (takesMember_angle hnone hvalue) htail⟩
  | @start angle value w ms h _ ih =>
    have hnone : parts.start = none := Option.not_isSome_iff_eq_none.1 (by simp [hstart])
    have hvalue : Takes word (fun bytes => bytes = value) [] w := takes_of_outcome h
    obtain ⟨last, hscheme, htail⟩ := ih { parts with start := some w } hangle rfl
    exact ⟨last, hscheme, .cons (takesMember_start hnone hvalue) htail⟩
  | other hkey h _ ih =>
    obtain ⟨last, hscheme, htail⟩ := ih parts hangle hstart
    exact ⟨last, hscheme, .cons (takesMember_other parts hkey h) htail⟩

/-! ### The rules of a grammar -/

section Follows

variable {α β : Type} {view : α → Option Scheme} {seen : β → Option Scheme} {items : List Event}
  {result : Except Fault Scheme} {r : Reader α} {f : α → Reader β}

/-- A reading has emitted `items` and has come to `result`: to this fault, or else to a value with
    this scheme or to another fault. -/
def Follows (view : α → Option Scheme) (items : List Event) (result : Except Fault Scheme)
    (progress : Progress Event α) : Prop :=
  progress.emitted = items ∧
    match result with
    | .error fault => progress.outcome = .error fault
    | .ok s => ∀ a rest, progress.outcome = .ok (a, rest) → view a = some s

/-- What is read without a report behind the rules makes no difference to them. -/
theorem Follows.bind (h : Follows view items result (r.run bytes))
    (hf : ∀ a s, view a = some s → Quiet (f a) fun b => seen b = some s) :
    Follows seen items result ((r >>= f).run bytes) := by
  cases hrun : r.run bytes with
  | mk emitted outcome =>
    rw [hrun] at h
    obtain ⟨rfl, hresult⟩ := h
    -- a fault of the first reader is that of both; a value is handed on, and adds no events
    cases outcome with
    | error fault =>
      rw [run_bind_of_error hrun]
      cases result with
      | error fault => exact ⟨rfl, congrArg Except.error (Except.error.inj hresult)⟩
      | ok s => exact ⟨rfl, fun _ _ h => nomatch h⟩
    | ok found =>
      obtain ⟨a, rest⟩ := found
      cases result with
      | error fault => exact nomatch hresult
      | ok s =>
        obtain ⟨hsilent, hvalue⟩ := hf a s (hresult a rest rfl) rest
        rw [run_bind_of_ok hrun, hsilent, List.append_nil]
        exact ⟨rfl, hvalue⟩

/-- Behind the rules nothing more is reported, since they cannot come again. -/
theorem quiet_membersFrom_grammarMember (fuel : Nat) (first : Bool) {parts : GrammarParts}
    {s : Scheme} (h : parts.scheme = some s) :
    Quiet (membersFrom grammarMember fuel first parts) fun last => last.scheme = some s := by
  induction fuel generalizing first parts with
  | zero => exact quiet_fail _
  | succ fuel ih =>
    refine (quiet_nextKey first).bind fun key _ => ?_
    cases key with
    | none => exact quiet_pure h
    | some key =>
      have hmember : Quiet (grammarMember parts key) fun last => last.scheme = parts.scheme :=
        quiet_grammarMember fun _ => by simp [h]
      exact hmember.bind fun last hlast => ih false (hlast.trans h)

/-- The member with the rules is read as a scheme is. -/
theorem follows_grammarMember {parts : GrammarParts} (hnone : parts.scheme = none)
    (hobject : ∀ rest, scheme.run (object ++ rest) = ⟨items, result.map fun s => (s, rest)⟩)
    {before after : List UInt8} (hbefore : Blank before) (hafter : Blank after)
    (rest : List UInt8) :
    Follows GrammarParts.scheme items result
      ((grammarMember parts "rules".toList).run
        (before ++ ':'.toUInt8 :: (after ++ (object ++ rest)))) := by
  -- the reader of rules gives the scheme itself, or the same fault
  have hscheme : Follows some items result (scheme.run (object ++ rest)) := by
    rw [hobject]
    cases result with
    | error fault => exact ⟨rfl, rfl⟩
    | ok s =>
      refine ⟨rfl, fun a left h => ?_⟩
      obtain ⟨rfl, -⟩ := Prod.mk.inj (Except.ok.inj h)
      rfl
  have honce : Follows id items result ((once "rules".toList none scheme).run
      (before ++ ':'.toUInt8 :: (after ++ (object ++ rest)))) := by
    rw [run_once_spelled skipsBlanks_scheme hbefore hafter]
    exact hscheme.bind fun a s ha => quiet_pure ha
  show Follows _ _ _ ((once "rules".toList parts.scheme scheme >>= fun scheme =>
    pure { parts with scheme }).run _)
  rw [hnone]
  exact honce.bind fun o s ho => quiet_pure ho

/-- The rules are read behind the members in front of them, and nothing behind them is reported. -/
theorem follows_members {ms : List (Text × List UInt8)} (hms : Precedes false false ms)
    (hspelled : SpellsMembers (fun value bytes => bytes = value) true
      (ms ++ [("rules".toList, object)]) bytes)
    (hobject : ∀ rest, scheme.run (object ++ rest) = ⟨items, result.map fun s => (s, rest)⟩)
    (rest : List UInt8) :
    Follows GrammarParts.scheme items result
      ((members grammarMember ⟨none, none, none⟩).run (bytes ++ rest)) := by
  -- the rules are the last of these members, so the others have been read without a report
  obtain ⟨front, back, hfront, hback, rfl⟩ := hspelled.exists_of_append
  obtain ⟨last, hnone, htakes⟩ := exists_takesMembers hms ⟨none, none, none⟩ rfl rfl
  rw [Bool.true_and] at hback
  cases hback with
  | @cons _ lead spelled before after value _ _ _ _ hlead hkey hbefore hafter hvalue hmore =>
    cases hmore
    subst hvalue
    simp only [List.append_assoc, List.cons_append, List.nil_append]
    obtain ⟨fuel, hrun⟩ := exists_run_members_spelled htakes hfront (ends_lead hlead hkey _)
    rw [hrun]
    show Follows _ _ _ ((nextKey ms.isEmpty >>= _ : Reader GrammarParts).run _)
    rw [run_bind_of_silent (run_nextKey_spelled hlead hkey _)]
    exact (follows_grammarMember hnone hobject hbefore hafter rest).bind fun parts s hs =>
      quiet_membersFrom_grammarMember fuel false hs

/-- The documents with some members at their front, of which the last are the rules.  What stands
    behind the rules is left open. -/
def SpellsRules (entries : List (Text × Text)) (bytes : List UInt8) : Prop :=
  ∃ before ms object front after, Blank before ∧ Precedes false false ms ∧
    SpellsObject SpellsString entries object ∧
    SpellsMembers (fun value bytes => bytes = value) true (ms ++ [("rules".toList, object)]) front ∧
    bytes = before ++ '{'.toUInt8 :: (front ++ after)

/-- **The rules of a document.**  A grammar is read as its rules are, up to what follows them. -/
theorem follows_document {entries : List (Text × Text)} (h : SpellsRules entries bytes)
    (hrules : ∀ object, SpellsObject SpellsString entries object → ∀ rest,
      scheme.run (object ++ rest) = ⟨items, result.map fun s => (s, rest)⟩) :
    Follows (fun g : Grammar => some g.scheme) items result
      ((Json.Reader.document grammar).run bytes) := by
  obtain ⟨before, ms, object, front, after, hbefore, hms, hobject, hfront, rfl⟩ := h
  have hskip : SkipsBlanks grammar := skipsBlanks_peek.bind _
  have hmembers := follows_members hms hfront (hrules object hobject) after
  have hgrammar : Follows (fun g : Grammar => some g.scheme) items result
      (grammar.run (before ++ '{'.toUInt8 :: (front ++ after))) := by
    rw [hskip.run_append hbefore, grammar, run_structured_object]
    refine hmembers.bind fun parts s hs => ?_
    refine (quiet_required (.missing "axiom".toList) parts.start).bind fun start _ => quiet_pure ?_
    rw [hs]
    rfl
  refine hgrammar.bind fun g s hs => quiet_peek.bind fun next _ => ?_
  -- behind the object there is nothing, or a fault of its own that comes after the events
  cases next with
  | none => exact quiet_pure hs
  | some b => exact quiet_fail _

end Follows

end Document

end D0L
