import D0L.Proofs.Documents
import D0L.Proofs.Json.Quiet

namespace D0L

/-!
# Files define productions

Whatever stands in a file, nothing is reported while it is read but the definitions of some
productions, in order; and the scheme that is read, if the reading succeeds, is the one that has
been collected from them.

* `Document.Defines` — a reader that emits the events of some definitions, and reads what comes of
  them.
* `Document.Defines.bind`, `Document.defines_members` — definitions one after the other.
* `Document.defines_scheme`, `Document.defines_grammar` — the readers of schemes and of grammars.
-/

open Json Json.Reader

/-- Productions are added in order, so all that come behind others are added to the scheme of those.
    -/
theorem Scheme.extend_append (scheme : Scheme) (ps qs : List Production) :
    scheme.extend (ps ++ qs) = scheme.extend ps >>= fun scheme => scheme.extend qs :=
  List.foldlM_append

namespace Document

variable {α β σ : Type} {s : Scheme} {r : Reader α} {f : α → Reader β} {view : α → Scheme}
  {seen : β → Scheme}

/-! ### Definitions while reading -/

/-- A reader emits the events of definitions made in the scheme `s`, whatever its input, and what it
    reads has, under `view`, the scheme that comes of them. -/
def Defines (s : Scheme) (view : α → Scheme) (r : Reader α) : Prop :=
  ∀ input, ∃ ps, (r.run input).emitted = (s.extend ps).events ∧
    ∀ a rest, (r.run input).outcome = .ok (a, rest) → view a = (s.extend ps).value

/-- A reader that emits nothing makes no definitions. -/
theorem defines_of_quiet (h : Quiet r fun a => view a = s) : Defines s view r := fun input =>
  ⟨[], (h input).1, (h input).2⟩

/-- Definitions are made in the scheme that earlier ones have led to. -/
theorem Defines.bind (hr : Defines s view r) (hf : ∀ a, Defines (view a) seen (f a)) :
    Defines s seen (r >>= f) := by
  intro input
  obtain ⟨ps, hitems, hvalue⟩ := hr input
  cases hrun : r.run input with
  | mk items outcome =>
    rw [hrun] at hitems hvalue
    cases outcome with
    | error fault =>
      rw [run_bind_of_error hrun]
      exact ⟨ps, hitems, fun _ _ h => nomatch h⟩
    | ok found =>
      obtain ⟨a, rest⟩ := found
      -- the second reader defines `qs` in the scheme that `ps` have led to
      obtain ⟨qs, hmore, hnext⟩ := hf a rest
      rw [hvalue a rest rfl] at hmore hnext
      refine ⟨ps ++ qs, ?_, ?_⟩
      · rw [run_bind_of_ok hrun, Scheme.extend_append, Traced.events_bind, ← hitems, ← hmore]
      · rw [run_bind_of_ok hrun, Scheme.extend_append, Traced.value_bind]
        exact hnext

/-- What is read without a report makes no difference to the definitions behind it. -/
theorem defines_bind_of_quiet (hr : Quiet r fun _ => True) (hf : ∀ a, Defines s seen (f a)) :
    Defines s seen (r >>= f) := by
  have hnone : Defines s (fun _ => s) r :=
    defines_of_quiet fun input => ⟨(hr input).1, fun _ _ _ => rfl⟩
  exact hnone.bind hf

/-- Members make definitions one after the other. -/
theorem defines_members {member : σ → Text → Reader σ} {view : σ → Scheme}
    (h : ∀ state key, Defines (view state) view (member state key)) (state : σ) :
    Defines (view state) view (members member state) := by
  -- from any member on: `view state` has what the members before it have defined
  have hfrom (fuel : Nat) : ∀ first state,
      Defines (view state) view (membersFrom member fuel first state) := by
    induction fuel with
    | zero => exact fun first state => defines_of_quiet (quiet_fail _)
    | succ fuel ih =>
      intro first state
      refine defines_bind_of_quiet (quiet_nextKey first) fun key => ?_
      cases key with
      | none => exact defines_of_quiet (quiet_pure rfl)
      | some key => exact (h state key).bind fun state => ih false state
  exact fun input => hfrom (input.length + 1) true state input

/-! ### Schemes -/

/-- One member of a scheme defines one symbol, or it fails and defines nothing. -/
theorem defines_definition (s : Scheme) (key : Text) : Defines s id (definition s key) := by
  refine defines_bind_of_quiet (quiet_only key) fun symbol => ?_
  refine defines_bind_of_quiet (quiet_expect _) fun _ => ?_
  refine defines_bind_of_quiet (quiet_wanting _ _) fun successor input => ?_
  refine ⟨[{ symbol, successor }], ?_, fun scheme rest h => ?_⟩
  · rw [run_traced, Scheme.extend_cons]
    exact (List.append_nil _).symm
  · rw [run_traced] at h
    exact (Prod.mk.inj (Except.ok.inj h)).1.symm

/-- Reading a scheme defines its productions. -/
theorem defines_scheme : Defines .empty id scheme := by
  refine defines_bind_of_quiet (quiet_wanting _ _) fun _ => ?_
  refine defines_bind_of_quiet quiet_advance fun _ => ?_
  exact defines_members defines_definition .empty

/-! ### Grammars -/

/-- A member that has been read before is not read again. -/
theorem quiet_once_again {γ : Type} (value : Reader γ) (key : Text) (before : γ) {Q} :
    Quiet (once key (some before) value) Q := by
  intro input
  rw [run_once_again rfl]
  exact ⟨rfl, fun _ _ h => nomatch h⟩

/-- A member that must not come again reports nothing if its value does not. -/
theorem quiet_once {γ : Type} {value : Reader γ} (h : Quiet value fun _ => True) (key : Text)
    (before : Option γ) : Quiet (once key before value) fun _ => True := by
  cases before with
  | none =>
    show Quiet (Json.Reader.colon >>= fun _ => value >>= fun a => pure (some a)) _
    exact (quiet_expect _).bind fun _ _ => h.bind fun _ _ => quiet_pure trivial
  | some a => exact quiet_once_again value key a

/-- Only the rules are read with a report, and they are not read again. -/
theorem quiet_grammarMember {parts : GrammarParts} {key : Text}
    (h : key = "rules".toList → parts.scheme ≠ none) :
    Quiet (grammarMember parts key) fun more => more.scheme = parts.scheme := by
  rw [grammarMember]
  split
  · exact (quiet_once (quiet_wanting _ _) key parts.angle).bind fun _ _ => quiet_pure rfl
  · split
    · exact (quiet_once (quiet_wanting _ _) key parts.start).bind fun _ _ => quiet_pure rfl
    · split
      · -- rules that come again are a fault before any of them is read
        rename_i hrules
        obtain ⟨s, hs⟩ := Option.ne_none_iff_exists'.1 (h hrules)
        rw [hs]
        have hagain : Quiet (once key (some s) scheme) fun _ => False := quiet_once_again _ key s
        exact hagain.bind fun _ h => h.elim
      · have hother : Quiet other fun _ => True :=
          (quiet_expect _).bind fun _ _ => quiet_scan _
        exact hother.bind fun _ _ => quiet_pure rfl

/-- The scheme that a grammar has so far. -/
def GrammarParts.schemeSoFar (parts : GrammarParts) : Scheme := parts.scheme.getD .empty

/-- The rules of a grammar, which has none so far, are a scheme. -/
theorem defines_once_scheme (key : Text) :
    Defines .empty (fun o : Option Scheme => o.getD .empty) (once key none scheme) := by
  show Defines .empty _ (Json.Reader.colon >>= fun _ => scheme >>= fun s => pure (some s))
  refine defines_bind_of_quiet (quiet_expect _) fun _ => ?_
  exact defines_scheme.bind fun s => defines_of_quiet (quiet_pure rfl)

/-- A member of a grammar defines symbols only if it is the first one with rules. -/
theorem defines_grammarMember (parts : GrammarParts) (key : Text) :
    Defines parts.schemeSoFar GrammarParts.schemeSoFar (grammarMember parts key) := by
  -- only the first member with the rules defines anything
  by_cases h : key = "rules".toList → parts.scheme ≠ none
  · refine defines_of_quiet fun input =>
      ⟨(quiet_grammarMember h input).1, fun more rest hmore => ?_⟩
    exact congrArg (fun scheme => scheme.getD Scheme.empty)
      ((quiet_grammarMember h input).2 more rest hmore)
  · rw [Classical.not_imp, Classical.not_not] at h
    obtain ⟨rfl, hnone⟩ := h
    show Defines _ _ (once "rules".toList parts.scheme scheme >>= fun scheme =>
      pure { parts with scheme })
    rw [GrammarParts.schemeSoFar, hnone]
    exact (defines_once_scheme _).bind fun s => defines_of_quiet (quiet_pure rfl)

/-- Asking for a part that must be there reports nothing. -/
theorem quiet_required {γ : Type} (misfit : Misfit) (found : Option γ) :
    Quiet (required misfit found) fun _ => True := by
  cases found with
  | none => exact quiet_fail _
  | some a => exact quiet_pure trivial

/-- What is true of the reader of an element, and of readers that find none, is true of the reader
    of the next element. -/
theorem element_induction {γ : Type} {item : Reader γ} {P : Reader (Option γ) → Prop}
    (hitem : P (item >>= fun a => pure (some a))) (hnone : P (pure none))
    (hfail : ∀ fault, P (Json.Reader.fail fault))
    (hpeek : ∀ f : Option UInt8 → Reader (Option γ), (∀ next, P (f next)) →
      P (Json.Reader.peek >>= f))
    (hadvance : ∀ f : Unit → Reader (Option γ), P (f ()) → P (Json.Reader.advance >>= f))
    (first : Bool) : P (Json.Reader.element first item) := by
  refine hpeek _ fun next => ?_
  cases next with
  | none => exact hfail _
  | some b =>
    show P (if b = Bracket.array.closing then _ else _)
    split
    · exact hnone
    · split
      · exact hitem
      · split
        · -- behind a comma there has to be another element
          refine hadvance _ (hpeek _ fun next => ?_)
          cases next with
          | none => exact hfail _
          | some b =>
            show P (if b = Bracket.array.closing then _ else _)
            split
            · exact hfail _
            · exact hitem
        · exact hfail _

/-- An element of an array reports what its value does, and the brackets and commas nothing. -/
theorem quiet_element {γ : Type} {item : Reader γ} (h : Quiet item fun _ => True) (first : Bool) :
    Quiet (Json.Reader.element first item) fun _ => True :=
  element_induction (P := fun r => Quiet r fun _ => True)
    (h.bind fun _ _ => quiet_pure trivial) (quiet_pure trivial) quiet_fail
    (fun _ hf => quiet_peek.bind fun next _ => hf next)
    (fun _ hf => quiet_advance.bind fun _ _ => hf) first

/-- A scheme in an array defines what the scheme does. -/
theorem defines_element (first : Bool) :
    Defines .empty (fun o : Option Scheme => o.getD .empty) (Json.Reader.element first scheme) :=
  element_induction (P := Defines .empty fun o : Option Scheme => o.getD .empty)
    (defines_scheme.bind fun _ => defines_of_quiet (quiet_pure rfl))
    (defines_of_quiet (quiet_pure rfl)) (fun fault => defines_of_quiet (quiet_fail fault))
    (fun _ hf => defines_bind_of_quiet quiet_peek hf)
    (fun _ hf => defines_bind_of_quiet quiet_advance fun _ => hf) first

/-- Reading a grammar defines the productions of its scheme. -/
theorem defines_grammar : Defines .empty Grammar.scheme grammar := by
  have hobject : Defines .empty Grammar.scheme (do
      let parts ← Json.Reader.members grammarMember ⟨none, none, none⟩
      let start ← required (.missing "axiom".toList) parts.start
      return { angle := parts.angle.getD .zero, start, scheme := parts.scheme.getD .empty }) := by
    refine (defines_members defines_grammarMember ⟨none, none, none⟩).bind fun parts => ?_
    exact defines_bind_of_quiet (quiet_required _ _) fun _ => defines_of_quiet (quiet_pure rfl)
  have harray : Defines .empty Grammar.scheme (do
      let angle ← Json.Reader.element true Json.Reader.number
      let start ← required (.tooShort 1 .grammar) (← Json.Reader.element (angle.isNone) word)
      let scheme ← Json.Reader.element false scheme
      return { angle := angle.getD .zero, start, scheme := scheme.getD .empty }) := by
    refine defines_bind_of_quiet (quiet_element (quiet_wanting _ _) true) fun angle => ?_
    refine defines_bind_of_quiet (quiet_element (quiet_wanting _ _) _) fun start => ?_
    refine defines_bind_of_quiet (quiet_required _ _) fun start => ?_
    exact (defines_element false).bind fun scheme => defines_of_quiet (quiet_pure rfl)
  refine defines_bind_of_quiet quiet_peek fun next => ?_
  -- a grammar is an object or an array, and anything else is refused
  cases next with
  | none => exact defines_of_quiet (quiet_fail _)
  | some b =>
    show Defines .empty _ (if b = '{'.toUInt8 then _ else _)
    split
    · exact defines_bind_of_quiet quiet_advance fun _ => hobject
    · split
      · refine defines_bind_of_quiet quiet_advance fun _ => harray.bind fun g => ?_
        exact defines_bind_of_quiet (quiet_expect _) fun _ => defines_of_quiet (quiet_pure rfl)
      · exact defines_bind_of_quiet (quiet_found b) fun _ => defines_of_quiet (quiet_fail _)

/-! ### Documents -/

/-- What stands around a value in a document defines nothing. -/
theorem Defines.document {view : α → Scheme} (h : Defines s view r) :
    Defines s view (Json.Reader.document r) := by
  refine h.bind fun a => defines_bind_of_quiet quiet_peek fun next => ?_
  cases next with
  | none => exact defines_of_quiet (quiet_pure rfl)
  | some b => exact defines_of_quiet (quiet_fail _)

/-- A document that has been read has a value at its front. -/
theorem exists_outcome_of_read {bytes : List UInt8} {a : α} (h : (read r bytes).outcome = .ok a) :
    ∃ rest, ((Json.Reader.document r).run bytes).outcome = .ok (a, rest) := by
  cases houtcome : ((Json.Reader.document r).run bytes).outcome with
  | ok found =>
    obtain ⟨b, rest⟩ := found
    have hread : (read r bytes).outcome = .ok b := by
      rw [read, houtcome]
      rfl
    obtain rfl := Except.ok.inj (hread.symm.trans h)
    exact ⟨rest, rfl⟩
  | error fault =>
    have hread : (read r bytes).outcome = .error (.document fault) := by
      rw [read, houtcome]
      rfl
    cases hread.symm.trans h

/-- **What is reported while a grammar is read.**  Whatever has been opened, some productions are
    collected, and nothing else is reported; a grammar that is read has the scheme of these
    productions. -/
theorem exists_fromOpened_grammar (opened : Except FileFault Opened) :
    ∃ ps, (fromOpened grammar opened).events = (Scheme.collect ps).events ∧
      ∀ g, (fromOpened grammar opened).outcome = .ok g →
        g.scheme = (Scheme.collect ps).value := by
  -- what cannot be read at all defines nothing
  have hnone {e : Error} : ∃ ps, (throw e : Attempt Grammar).events = (Scheme.collect ps).events ∧
      ∀ g, (throw e : Attempt Grammar).outcome = .ok g → g.scheme = (Scheme.collect ps).value :=
    ⟨[], rfl, fun _ h => nomatch h⟩
  match opened with
  | .error fault => exact hnone
  | .ok .folder => exact hnone
  | .ok .zeros => exact hnone
  | .ok (.bytes bytes) =>
    obtain ⟨ps, hitems, hvalue⟩ := defines_grammar.document bytes
    refine ⟨ps, hitems, fun g hg => ?_⟩
    obtain ⟨rest, houtcome⟩ := exists_outcome_of_read hg
    exact hvalue g rest houtcome

end Document

end D0L
