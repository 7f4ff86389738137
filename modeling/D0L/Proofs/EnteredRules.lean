import D0L.Proofs.Definitions
import D0L.Proofs.SpelledGrammars

namespace D0L

/-!
# Reading rules is entering them

Rules that are read from a document lead to the same scheme as rules that are entered one after the
other, with the same reports on the way.  So do the rules of a grammar in a file, and if the file
can be read to its end, one report on the file follows.

* `Scheme.enter` — entering keys with their successors, up to a key that is no symbol.
* `Document.read_scheme_eq_enter` — reading a scheme.
* `Grammar.events_fromOpened`, `Grammar.outcome_fromOpened` — a file, given the document in it.
* `loading_is_entering` — schemes, grammars, and what is reported about them.
-/

open Json Document

variable {entries more : List (Text × Text)} {ps : List Production} {key w path : Text}
  {bytes : List UInt8}

/-! ### Entering -/

namespace Scheme

/-- Enters a key with its successor, if the key is a symbol. -/
def enterEntry (scheme : Scheme) : Text × Text → Attempt Scheme
  | ([s], w) => ExceptT.lift (Prod.snd <$> scheme.define { symbol := s, successor := w })
  | (key, _) => throw (.document (.unfit (.notOneCharacter key)))

/-- Enters keys with their successors, one after the other. -/
def enter (entries : List (Text × Text)) : Attempt Scheme := entries.foldlM enterEntry .empty

/-- A member whose key is a symbol is entered as the production that it stands for. -/
theorem enterEntry_entry (scheme : Scheme) (p : Production) :
    scheme.enterEntry p.entry = ExceptT.lift (scheme.add p) := rfl

/-- Any other key is refused before anything is entered. -/
theorem enterEntry_of_key (scheme : Scheme) (hkey : key.length ≠ 1) (w : Text) :
    scheme.enterEntry (key, w) = throw (.document (.unfit (.notOneCharacter key))) := by
  unfold enterEntry
  split
  · rename_i heq
    obtain ⟨rfl, -⟩ := Prod.mk.inj heq
    exact absurd rfl hkey
  · rename_i heq
    obtain ⟨rfl, -⟩ := Prod.mk.inj heq
    rfl

/-- Members whose keys are symbols are all entered, in their order. -/
theorem foldlM_enterEntry (scheme : Scheme) (ps : List Production) :
    (ps.map Production.entry).foldlM enterEntry scheme = ExceptT.lift (scheme.extend ps) := by
  induction ps generalizing scheme with
  | nil => rfl
  | cons p ps ih =>
    rw [List.map_cons, List.foldlM_cons, enterEntry_entry, extend_cons]
    refine Attempt.eq_of_parts ?_ ?_
    · rw [Attempt.events_lift_bind, ih, Attempt.events_lift, Attempt.events_lift,
        Traced.events_bind]
    · rw [Attempt.outcome_lift_bind, ih, Attempt.outcome_lift, Attempt.outcome_lift,
        Traced.value_bind]

/-- Entries with symbols for their keys are collected. -/
theorem enter_map_entry (ps : List Production) :
    enter (ps.map Production.entry) = ExceptT.lift (collect ps) :=
  foldlM_enterEntry .empty ps

/-- A key that is no symbol ends the entering, behind the productions in front of it. -/
theorem enter_of_key (ps : List Production) (hkey : key.length ≠ 1) (w : Text)
    (more : List (Text × Text)) :
    enter (ps.map Production.entry ++ (key, w) :: more) = ExceptT.mk
      ⟨(collect ps).events, .error (.document (.unfit (.notOneCharacter key)))⟩ := by
  have hthrow : enter (ps.map Production.entry ++ (key, w) :: more)
      = ExceptT.lift (collect ps) >>= fun _ =>
        throw (.document (.unfit (.notOneCharacter key))) := by
    rw [enter, List.foldlM_append, foldlM_enterEntry]
    refine congrArg (ExceptT.lift (collect ps) >>= ·) (funext fun scheme => ?_)
    rw [List.foldlM_cons, enterEntry_of_key scheme hkey, Attempt.throw_bind]
  rw [hthrow]
  refine Attempt.eq_of_parts ?_ rfl
  rw [Attempt.events_lift_bind, Attempt.events_throw, List.append_nil]
  rfl

/-- Either all keys are symbols, or there is a first one that is none. -/
theorem entries_cases (entries : List (Text × Text)) :
    (∃ ps : List Production, entries = ps.map Production.entry) ∨
      ∃ (ps : List Production) (key w : Text) (more : List (Text × Text)), key.length ≠ 1 ∧
        entries = ps.map Production.entry ++ (key, w) :: more := by
  induction entries with
  | nil => exact .inl ⟨[], rfl⟩
  | cons entry entries ih =>
    obtain ⟨key, w⟩ := entry
    -- the first key is no symbol, or else the others decide
    by_cases hkey : key.length = 1
    · obtain ⟨s, rfl⟩ := List.length_eq_one_iff.1 hkey
      rcases ih with ⟨ps, rfl⟩ | ⟨ps, key, v, more, hkey, rfl⟩
      · exact .inl ⟨⟨s, w⟩ :: ps, rfl⟩
      · exact .inr ⟨⟨s, w⟩ :: ps, key, v, more, hkey, rfl⟩
    · exact .inr ⟨[], key, w, entries, hkey, rfl⟩

end Scheme

/-- **Reading a scheme is entering its members.** -/
theorem Document.read_scheme_eq_enter (h : SpellsScheme entries bytes) :
    read scheme bytes = Scheme.enter entries := by
  rcases Scheme.entries_cases entries with ⟨ps, rfl⟩ | ⟨ps, key, w, more, hkey, rfl⟩
  · rw [read_scheme_spelled h, Scheme.enter_map_entry]
  · rw [read_scheme_of_key hkey h, Scheme.enter_of_key ps hkey]

/-! ### Files -/

/-- What is reported about a file behind all that is reported about its rules. -/
def loadedEvents (path : Text) : Except Error Grammar → List Event
  | .ok g => [.loaded path g.scheme.size]
  | .error _ => []

namespace Grammar

variable {opened : Except FileFault Opened}

/-- The report on a grammar that has been read changes nothing about the grammar. -/
theorem outcome_fromOpened :
    (fromOpened path opened).outcome = (Document.fromOpened Document.grammar opened).outcome := by
  rw [fromOpened, Attempt.outcome_bind]
  cases (Document.fromOpened Document.grammar opened).outcome <;> rfl

/-- A file is reported behind its rules, if it has been read. -/
theorem events_fromOpened :
    (fromOpened path opened).events = (Document.fromOpened Document.grammar opened).events
      ++ loadedEvents path (fromOpened path opened).outcome := by
  rw [outcome_fromOpened, fromOpened, Attempt.events_bind]
  cases (Document.fromOpened Document.grammar opened).outcome with
  | error e => rfl
  | ok g => rfl

end Grammar

namespace Document

/-- **Reading a grammar enters its rules.**  A fault in them is a fault of the grammar, and a
    grammar that is read has them. -/
theorem read_grammar_enters (h : SpellsRules entries bytes) :
    (read grammar bytes).events = (Scheme.enter entries).events ∧
      (∀ e, (Scheme.enter entries).outcome = .error e →
        (read grammar bytes).outcome = .error e) ∧
      ∀ g, (read grammar bytes).outcome = .ok g →
        (Scheme.enter entries).outcome = .ok g.scheme := by
  rcases Scheme.entries_cases entries with ⟨ps, rfl⟩ | ⟨ps, key, w, more, hkey, rfl⟩
  · -- the rules are read, but what follows them need not be
    have hfollows : Follows (fun g : Grammar => some g.scheme) (Scheme.collect ps).events
        (.ok (Scheme.collect ps).value) ((Json.Reader.document grammar).run bytes) :=
      follows_document h fun object hobject rest => run_scheme_spelled hobject rest
    rw [Scheme.enter_map_entry, Attempt.events_lift, Attempt.outcome_lift]
    refine ⟨hfollows.1, (fun e he => nomatch he), fun g hg => ?_⟩
    obtain ⟨rest, houtcome⟩ := exists_outcome_of_read hg
    exact congrArg Except.ok (Option.some.inj (hfollows.2 g rest houtcome)).symm
  · have hfollows : Follows (fun g : Grammar => some g.scheme) (Scheme.collect ps).events
        (.error (.unfit (.notOneCharacter key))) ((Json.Reader.document grammar).run bytes) :=
      follows_document h fun object hobject rest => run_scheme_of_key hkey hobject rest
    obtain ⟨hevents, houtcome⟩ := hfollows
    -- the fault in the rules is the fault of the whole document
    have hread : (read grammar bytes).outcome
        = .error (.document (.unfit (.notOneCharacter key))) := by
      rw [read, houtcome]
      rfl
    rw [Scheme.enter_of_key ps hkey]
    refine ⟨hevents, fun e he => ?_, fun g hg => ?_⟩
    · obtain rfl := Except.error.inj he
      exact hread
    · rw [hread] at hg
      cases hg

end Document

/-! ### All together -/

/-- **Loading is entering.**  A document with the members of a scheme is read as these members are
    entered.  If all keys are symbols, the productions are collected: each one is reported if its
    symbol is a mark, then as a definition, and then as a redefinition if there is an earlier one of
    its symbol, with the successor in the last of these; and the last production of a symbol stays.
    Otherwise the reading ends at the first key that is no symbol, behind the productions in front
    of it.  The rules of a grammar in a file are entered in the same way, and behind all reports on
    the productions in a file there is one more on the file itself, if and only if it is read. -/
theorem loading_is_entering :
    (∀ entries bytes, SpellsScheme entries bytes →
      Document.read Document.scheme bytes = Scheme.enter entries) ∧
    (∀ ps, Scheme.enter (ps.map Production.entry) = ExceptT.lift (Scheme.collect ps) ∧
      (Scheme.collect ps).events.map Event.record = reports [] ps ∧
      ∀ s, (Scheme.collect ps).value.get? s = latest? ps s) ∧
    (∀ (ps : List Production) (key w : Text) (more : List (Text × Text)), key.length ≠ 1 →
      Scheme.enter (ps.map Production.entry ++ (key, w) :: more) = ExceptT.mk
        ⟨(Scheme.collect ps).events, .error (.document (.unfit (.notOneCharacter key)))⟩) ∧
    (∀ path entries bytes, SpellsRules entries bytes →
      (Grammar.fromOpened path (.ok (.bytes bytes))).events = (Scheme.enter entries).events
          ++ loadedEvents path (Grammar.fromOpened path (.ok (.bytes bytes))).outcome ∧
        (∀ e, (Scheme.enter entries).outcome = .error e →
          (Grammar.fromOpened path (.ok (.bytes bytes))).outcome = .error e) ∧
        ∀ g, (Grammar.fromOpened path (.ok (.bytes bytes))).outcome = .ok g →
          (Scheme.enter entries).outcome = .ok g.scheme) ∧
    (∀ path opened, ∃ ps, (Grammar.fromOpened path opened).events = (Scheme.collect ps).events
          ++ loadedEvents path (Grammar.fromOpened path opened).outcome ∧
        ∀ g, (Grammar.fromOpened path opened).outcome = .ok g →
          g.scheme = (Scheme.collect ps).value) ∧
    ∀ path rules, (Event.loaded path rules).record = (.debug, "loaded L-system".toList,
      [("path".toList, path), ("rules".toList, Numeral.write rules)]) := by
  refine ⟨fun entries bytes h => read_scheme_eq_enter h, fun ps => ?_,
    fun ps key w more hkey => Scheme.enter_of_key ps hkey w more, fun path entries bytes h => ?_,
    fun path opened => ?_, fun path rules => rfl⟩
  · exact ⟨Scheme.enter_map_entry ps, Scheme.events_collect ps, Scheme.get?_collect ps⟩
  · obtain ⟨hevents, hfault, hscheme⟩ := read_grammar_enters h
    rw [Grammar.events_fromOpened, Grammar.outcome_fromOpened]
    exact ⟨congrArg (· ++ _) hevents, hfault, hscheme⟩
  · -- also a document with a fault has some rules in front of it
    obtain ⟨ps, hevents, hscheme⟩ := exists_fromOpened_grammar opened
    rw [Grammar.events_fromOpened, Grammar.outcome_fromOpened]
    exact ⟨ps, congrArg (· ++ _) hevents, hscheme⟩

/-- A scheme with a key of two symbols. -/
def pairKeyed : Text := " \x7b\"A\":\"AB\",\"XY\":\"F\"\x7d\n".toList

/-- A grammar with a mark and with a symbol that is defined again. -/
def redefining : Text :=
  "\x7b\"axiom\":\"F\",\"note\":[1],".toList
    ++ "\"rules\":\x7b\"F\":\"FF\",\"+\":\"\",\"F\":\"\\n\"\x7d\x7d".toList

/-- A key that is no symbol, behind a rule that has been entered; and a grammar with a rule for a
    mark and a symbol that is defined again. -/
theorem loading_is_entering_again :
    SpellsScheme [("A".toList, "AB".toList), ("XY".toList, "F".toList)] (Text.toBytes pairKeyed) ∧
      Document.read Document.scheme (Text.toBytes pairKeyed) = ExceptT.mk
        ⟨[.defined 'A' "AB".toList],
          .error (.document (.unfit (.notOneCharacter "XY".toList)))⟩ ∧
      SpellsRules [("F".toList, "FF".toList), ("+".toList, []), ("F".toList, "\n".toList)]
        (Text.toBytes redefining) ∧
      (Grammar.fromOpened "f.json".toList (.ok (.bytes (Text.toBytes redefining)))).events
        = [.defined 'F' "FF".toList, .unreachable '+', .defined '+' [],
            .defined 'F' "\n".toList, .redefined 'F' "FF".toList,
            .loaded "f.json".toList 2] := by
  have hnone : Blank [] := blank_nil
  have hcomma : Leads false [','.toUInt8] := .next hnone hnone
  -- how the first document is spelled
  have hscheme : SpellsScheme [("A".toList, "AB".toList), ("XY".toList, "F".toList)]
      (Text.toBytes pairKeyed) := by
    refine ⟨[' '.toUInt8], _, ['\n'.toUInt8], by decide, ⟨_, [], .cons (.first hnone)
      (spellsString_write _) hnone hnone (spellsString_write _) (.cons hcomma
        (spellsString_write _) hnone hnone (spellsString_write _) .nil), hnone, rfl⟩, by decide, ?_⟩
    decide +kernel
  -- how the second one is, with a value in it that nobody asks for
  have hrules : SpellsRules
      [("F".toList, "FF".toList), ("+".toList, []), ("F".toList, "\n".toList)]
      (Text.toBytes redefining) := by
    refine ⟨[], [("axiom".toList, Text.toBytes "\"F\"".toList), ("note".toList,
      Text.toBytes "[1]".toList)], _, _, ['}'.toUInt8], hnone, ?_, ⟨_, [], .cons (.first hnone)
      (spellsString_write _) hnone hnone (spellsString_write _) (.cons hcomma
        (spellsString_write _) hnone hnone (spellsString_write _) (.cons hcomma
          (spellsString_write _) hnone hnone (spellsString_write _) .nil)), hnone, rfl⟩,
      .cons (.first hnone) (spellsString_write _) hnone hnone rfl (.cons hcomma
        (spellsString_write _) hnone hnone rfl (.cons hcomma
          (spellsString_write _) hnone hnone rfl .nil)), ?_⟩
    · exact .start (w := "F".toList) rfl (.other (by decide) rfl .nil)
    · decide +kernel
  refine ⟨hscheme, (loading_is_entering.1 _ _ hscheme).trans ?_, hrules, ?_⟩
  · rfl
  · rw [(loading_is_entering.2.2.2.1 _ _ _ hrules).1]
    decide +kernel

end D0L
