import D0L.Proofs.EnteredRules
import D0L.Proofs.Json.PassedValues
import Mathlib.Data.List.Induction

namespace D0L

/-!
# Grammars in any arrangement

A grammar is read from the members of an object, and these may stand in any order, with blanks
between all tokens and with members that nobody asks for between them.  Only the values of the three
members with the parts of the grammar count, and where they stand makes no difference.

* `Document.Entry`, `Document.Contents` — members, and what three of them say.
* `Document.Arranges` — the arrangements of some contents.
* `Document.takesMember_entry`, `Document.run_grammarMember_again` — one member more, and one whose
  part has been given before.
* `Document.takesMembers_entries` — all members, by induction from the last one.
* `Document.read_grammar_entries`, `Document.read_grammar_again` — whole documents.
* `reads_any_arrangement` — files.
-/

open Json Json.Reader

namespace Document

/-! ### Members -/

/-- The names of the parts of a grammar. -/
def partNames : List Text := ["angle".toList, "axiom".toList, "rules".toList]

/-- A member of a document with a grammar. -/
inductive Entry where
  /-- The angle. -/
  | angle (x : Binary64)
  /-- The start word. -/
  | start (w : Word)
  /-- The rules, with one production for each of their members. -/
  | rules (ps : List Production)
  /-- A member that nobody asks for. -/
  | other (key : Text) (h : key ∉ partNames)

namespace Entry

/-- The name of a member. -/
def key : Entry → Text
  | angle _ => "angle".toList
  | start _ => "axiom".toList
  | rules _ => "rules".toList
  | other key _ => key

/-- The ways to spell the value of a member. If nobody asks for it, it can be of any kind. -/
def Spells : Entry → List UInt8 → Prop
  | angle x => SpellsBinary64 x
  | start w => SpellsString w
  | rules ps => SpellsObject SpellsString (ps.map Production.entry)
  | other _ _ => IsValue

/-- What is reported while a member is read. -/
def events : Entry → List Event
  | rules ps => (Scheme.collect ps).events
  | _ => []

/-- The angle that a member gives. -/
def angle? : Entry → Option Binary64
  | angle x => some x
  | _ => none

/-- The start word that a member gives. -/
def start? : Entry → Option Word
  | start w => some w
  | _ => none

/-- The productions that a member gives. -/
def rules? : Entry → Option (List Production)
  | rules ps => some ps
  | _ => none

/-- A member with its name. -/
def member (e : Entry) : Text × Entry := (e.key, e)

end Entry

/-! ### Contents -/

/-- What a document says about the parts of a grammar. -/
structure Contents where
  /-- The angle. -/
  angle : Option Binary64
  /-- The start word. -/
  start : Option Word
  /-- The productions of the rules. -/
  rules : Option (List Production)

namespace Contents

/-- What some members say. -/
def ofEntries (ms : List Entry) : Contents where
  angle := ms.findSome? Entry.angle?
  start := ms.findSome? Entry.start?
  rules := ms.findSome? Entry.rules?

/-- One member for each part that is given. -/
def entries (c : Contents) : List Entry :=
  c.angle.toList.map .angle ++ (c.start.toList.map .start ++ c.rules.toList.map .rules)

/-- The scheme of the rules, with what is reported about them; without rules it is empty. -/
def scheme (c : Contents) : Traced Scheme := c.rules.elim (pure .empty) Scheme.collect

/-- The parts of the grammar, as they have been read. -/
def parts (c : Contents) : GrammarParts where
  angle := c.angle
  start := c.start
  scheme := c.rules.map fun ps => (Scheme.collect ps).value

end Contents

/-- The members give these contents, in any order, and no part twice. -/
def Arranges (c : Contents) (ms : List Entry) : Prop :=
  ∃ others : List Entry, (∀ e ∈ others, e.key ∉ partNames) ∧ ms.Perm (c.entries ++ others)

/-- No part of a grammar is given twice. -/
def Unrepeated (ms : List Entry) : Prop :=
  ms.Pairwise fun a e => a.key = e.key → e.key ∉ partNames

variable {ms front : List Entry} {e : Entry} {c : Contents} {bytes object : List UInt8}

/-! ### Members that come again -/

/-- One member more does not repeat a part if no member before it has the name of the same part. -/
theorem unrepeated_concat :
    Unrepeated (ms ++ [e]) ↔
      Unrepeated ms ∧ ∀ a ∈ ms, a.key = e.key → e.key ∉ partNames := by
  simp [Unrepeated, List.pairwise_append]

/-- The first part that is given again, if there is one. -/
theorem exists_again (h : ¬ Unrepeated ms) :
    ∃ front e back, ms = front ++ e :: back ∧ Unrepeated front ∧ e.key ∈ partNames ∧
      e.key ∈ front.map Entry.key := by
  induction ms using List.reverseRecOn with
  | nil => exact absurd List.Pairwise.nil h
  | append_singleton ms e ih =>
    by_cases hms : Unrepeated ms
    · -- then it is the last member that comes again
      rw [unrepeated_concat] at h
      push Not at h
      obtain ⟨a, ha, hkey, hname⟩ := h hms
      exact ⟨ms, e, [], rfl, hms, hname, hkey ▸ List.mem_map_of_mem ha⟩
    · obtain ⟨front, again, back, rfl, hagain⟩ := ih hms
      exact ⟨front, again, back ++ [e], by simp, hagain⟩

/-- There is at most one member for each part. -/
theorem Contents.keys_sublist (c : Contents) : (c.entries.map Entry.key).Sublist partNames := by
  have hone {α : Type} (f : α → Entry) (name : Text) (hf : ∀ a, (f a).key = name) (o : Option α) :
      ((o.toList.map f).map Entry.key).Sublist [name] := by
    cases o <;> simp [hf]
  rw [entries, List.map_append, List.map_append]
  exact (hone .angle _ (fun _ => rfl) c.angle).append
    ((hone .start _ (fun _ => rfl) c.start).append (hone .rules _ (fun _ => rfl) c.rules))

/-- The parts of a grammar come once each, wherever they stand. -/
theorem Arranges.unrepeated (h : Arranges c ms) : Unrepeated ms := by
  obtain ⟨others, hothers, hperm⟩ := h
  have hnodup : (c.entries.map Entry.key).Nodup :=
    (by decide : partNames.Nodup).sublist c.keys_sublist
  have hgiven : Unrepeated c.entries :=
    (List.pairwise_map.1 hnodup).imp fun hne heq => absurd heq hne
  have hrest : Unrepeated others := List.pairwise_of_forall_mem_list fun _ _ e he _ => hothers e he
  have hall : Unrepeated (c.entries ++ others) :=
    List.pairwise_append.2 ⟨hgiven, hrest, fun _ _ e he _ => hothers e he⟩
  exact (hperm.pairwise_iff fun h heq => heq ▸ h heq.symm).2 hall

/-! ### What members say -/

/-- Only a member with the name of the angle holds one. -/
theorem Entry.angle?_of_ne (h : e.key ≠ "angle".toList) : e.angle? = none := by
  cases e with
  | angle x => exact absurd rfl h
  | _ => rfl

/-- Only a member with the name of the start word holds one. -/
theorem Entry.start?_of_ne (h : e.key ≠ "axiom".toList) : e.start? = none := by
  cases e with
  | start w => exact absurd rfl h
  | _ => rfl

/-- Only a member with the name of the rules holds some. -/
theorem Entry.rules?_of_ne (h : e.key ≠ "rules".toList) : e.rules? = none := by
  cases e with
  | rules ps => exact absurd rfl h
  | _ => rfl

/-- What only one member says is found wherever that member stands. -/
theorem findSome?_of_perm {β : Type} {f : Entry → Option β} {o : Option β}
    {given others : List Entry} (hperm : ms.Perm (given ++ others))
    (hgiven : given.filterMap f = o.toList) (hothers : ∀ e ∈ others, f e = none) :
    ms.findSome? f = o := by
  have hvalues := hperm.filterMap f
  rw [List.filterMap_append, hgiven, List.filterMap_eq_nil_iff.2 hothers,
    List.append_nil] at hvalues
  rw [← List.head?_filterMap]
  cases o with
  | none => rw [List.perm_nil.1 hvalues, List.head?_nil]
  | some b => rw [List.perm_singleton.1 hvalues, List.head?_cons]

/-- **The order makes no difference** to what the members say. -/
theorem Arranges.ofEntries_eq (h : Arranges c ms) : Contents.ofEntries ms = c := by
  obtain ⟨others, hothers, hperm⟩ := h
  -- the members with a known name hold the parts, each at most one
  have hgiven : c.entries.filterMap Entry.angle? = c.angle.toList ∧
      c.entries.filterMap Entry.start? = c.start.toList ∧
      c.entries.filterMap Entry.rules? = c.rules.toList := by
    obtain ⟨_ | x, _ | w, _ | ps⟩ := c <;> exact ⟨rfl, rfl, rfl⟩
  have hne {name : Text} (hname : name ∈ partNames) : ∀ e ∈ others, e.key ≠ name :=
    fun e he hkey => hothers e he (hkey ▸ hname)
  -- no other member holds a part, and the order makes no difference to the first one that does
  have hangle : ms.findSome? Entry.angle? = c.angle :=
    findSome?_of_perm hperm hgiven.1 fun e he =>
      Entry.angle?_of_ne (hne (by decide) e he)
  have hstart : ms.findSome? Entry.start? = c.start :=
    findSome?_of_perm hperm hgiven.2.1 fun e he =>
      Entry.start?_of_ne (hne (by decide) e he)
  have hrules : ms.findSome? Entry.rules? = c.rules :=
    findSome?_of_perm hperm hgiven.2.2 fun e he =>
      Entry.rules?_of_ne (hne (by decide) e he)
  rw [Contents.ofEntries, hangle, hstart, hrules]

/-! ### One member -/

/-- What one member more says. -/
theorem ofEntries_concat (ms : List Entry) (e : Entry) :
    Contents.ofEntries (ms ++ [e]) = ⟨(Contents.ofEntries ms).angle.or e.angle?,
      (Contents.ofEntries ms).start.or e.start?, (Contents.ofEntries ms).rules.or e.rules?⟩ := by
  simp only [Contents.ofEntries, List.findSome?_append, List.findSome?_singleton]

/-- A member whose part has not been given is taken off, and says what it says. -/
theorem takesMember_entry (hfresh : ∀ a ∈ ms, a.key = e.key → e.key ∉ partNames) :
    TakesMember (grammarMember (Contents.ofEntries ms).parts e.key) e.Spells e.events
        (Contents.ofEntries (ms ++ [e])).parts ∧
      (Contents.ofEntries (ms ++ [e])).scheme.events
        = (Contents.ofEntries ms).scheme.events ++ e.events := by
  rw [ofEntries_concat]
  -- no member before holds the same part, so this one sets it and nothing else changes
  cases e with
  | angle x =>
    have hname : "angle".toList ∈ partNames := by decide
    have hnone : (Contents.ofEntries ms).angle = none :=
      List.findSome?_eq_none_iff.2 fun a ha =>
        Entry.angle?_of_ne fun hkey => hfresh a ha hkey hname
    simp only [hnone, Entry.angle?, Entry.start?, Entry.rules?, Option.or_none, Option.none_or]
    exact ⟨takesMember_angle hnone fun _ h _ hrest => run_number_spelled h hrest,
      (List.append_nil _).symm⟩
  | start w =>
    have hname : "axiom".toList ∈ partNames := by decide
    have hnone : (Contents.ofEntries ms).start = none :=
      List.findSome?_eq_none_iff.2 fun a ha =>
        Entry.start?_of_ne fun hkey => hfresh a ha hkey hname
    simp only [hnone, Entry.angle?, Entry.start?, Entry.rules?, Option.or_none, Option.none_or]
    exact ⟨takesMember_start hnone fun _ h rest _ => run_textFor h .text rest,
      (List.append_nil _).symm⟩
  | rules ps =>
    have hname : "rules".toList ∈ partNames := by decide
    have hnone : (Contents.ofEntries ms).rules = none :=
      List.findSome?_eq_none_iff.2 fun a ha =>
        Entry.rules?_of_ne fun hkey => hfresh a ha hkey hname
    have hscheme : (Contents.ofEntries ms).parts.scheme = none := by
      rw [Contents.parts, hnone, Option.map_none]
    simp only [hnone, Entry.angle?, Entry.start?, Entry.rules?, Option.or_none, Option.none_or]
    refine ⟨takesMember_rules hscheme fun _ h rest _ => run_scheme_spelled h rest, ?_⟩
    simp [Contents.scheme, hnone, Entry.events]
  | other key hkey =>
    simp only [Entry.angle?, Entry.start?, Entry.rules?, Option.or_none]
    exact ⟨fun _ _ _ hbefore hafter h => takesMember_other _ hkey h.skipValue_eq hbefore hafter rfl,
      (List.append_nil _).symm⟩

/-- A part that is given again is a fault. -/
theorem run_grammarMember_again (he : e ∈ ms) (hname : e.key ∈ partNames) (input : List UInt8) :
    (grammarMember (Contents.ofEntries ms).parts e.key).run input
      = ⟨[], .error (.unfit (.repeated e.key))⟩ := by
  have hsome {β : Type} {f : Entry → Option β} (hf : (f e).isSome) :
      ∃ b, ms.findSome? f = some b :=
    Option.isSome_iff_exists.1 (List.findSome?_isSome_iff.2 ⟨e, he, hf⟩)
  -- the member before has set the part that this one would set
  cases e with
  | angle x =>
    obtain ⟨y, hy⟩ : ∃ y, (Contents.ofEntries ms).angle = some y := hsome rfl
    exact run_bind_of_error (run_once_again hy Json.Reader.number "angle".toList input) _
  | start w =>
    obtain ⟨v, hv⟩ : ∃ v, (Contents.ofEntries ms).start = some v := hsome rfl
    exact run_bind_of_error (run_once_again hv word "axiom".toList input) _
  | rules ps =>
    obtain ⟨qs, hqs⟩ : ∃ qs, (Contents.ofEntries ms).rules = some qs := hsome rfl
    have hscheme : (Contents.ofEntries ms).parts.scheme = some (Scheme.collect qs).value := by
      rw [Contents.parts, hqs, Option.map_some]
    exact run_bind_of_error (run_once_again hscheme scheme "rules".toList input) _
  | other key hkey => exact absurd hname hkey

/-! ### All members -/

/-- Members are taken off one after the other, if no part is given again. -/
theorem takesMembers_entries (h : Unrepeated ms) :
    TakesMembers grammarMember Entry.Spells ⟨none, none, none⟩ (ms.map Entry.member)
      (Contents.ofEntries ms).scheme.events (Contents.ofEntries ms).parts := by
  -- what has been read is what the members so far say, so the last member is split off
  induction ms using List.reverseRecOn with
  | nil => exact .nil _
  | append_singleton ms e ih =>
    obtain ⟨hms, hfresh⟩ := unrepeated_concat.1 h
    obtain ⟨htakes, hevents⟩ := takesMember_entry hfresh
    rw [List.map_append, hevents]
    exact (ih hms).concat htakes

/-! ### Documents -/

/-- The documents with these members, in this order. -/
def SpellsEntries (ms : List Entry) (bytes : List UInt8) : Prop :=
  ∃ before object after, Blank before ∧
    SpellsObject Entry.Spells (ms.map Entry.member) object ∧ Blank after ∧
    bytes = before ++ (object ++ after)

/-- The documents with these members at their front, and with the name of another one behind them.
    What stands behind the name is left open. -/
def SpellsUpTo (ms : List Entry) (key : Text) (bytes : List UInt8) : Prop :=
  ∃ before front lead spelled after, Blank before ∧
    SpellsMembers Entry.Spells true (ms.map Entry.member) front ∧ Leads ms.isEmpty lead ∧
    SpellsString key spelled ∧
    bytes = before ++ '{'.toUInt8 :: (front ++ (lead ++ (spelled ++ after)))

/-- A document that is spelled up to some member is spelled up to every member before it. -/
theorem SpellsUpTo.of_append {back : List Entry} {key : Text}
    (h : SpellsUpTo (front ++ e :: back) key bytes) : SpellsUpTo front e.key bytes := by
  obtain ⟨before, members, lead, spelled, after, hbefore, hmembers, -, -, rfl⟩ := h
  rw [List.map_append, List.map_cons] at hmembers
  obtain ⟨body, comma, name, more, hbody, hcomma, hname, rfl⟩ := hmembers.exists_of_middle
  rw [List.isEmpty_map] at hcomma
  exact ⟨before, body, comma, name, more ++ (lead ++ (spelled ++ after)), hbefore, hbody, hcomma,
    hname, by simp only [List.append_assoc]⟩

/-- Blanks in front of a grammar do not matter. -/
theorem skipsBlanks_grammar : SkipsBlanks grammar := skipsBlanks_peek.bind _

/-- What is made of some contents: a grammar, if there is a start word. -/
def Contents.grammar (c : Contents) : Except Fault Grammar :=
  match c.start with
  | some start => .ok { angle := c.angle.getD .zero, start, scheme := c.scheme.value }
  | none => .error (.unfit (.missing "axiom".toList))

/-- **A grammar is read from its members**, and nothing else counts. -/
theorem run_grammar_entries (h : Arranges c ms)
    (hobject : SpellsObject Entry.Spells (ms.map Entry.member) object) (rest : List UInt8) :
    grammar.run (object ++ rest) = ⟨c.scheme.events, c.grammar.map fun g => (g, rest)⟩ := by
  obtain ⟨body, blanks, hmembers, hblanks, rfl⟩ := hobject
  have htakes := takesMembers_entries h.unrepeated
  rw [h.ofEntries_eq] at htakes
  simp only [List.cons_append, List.append_assoc, List.nil_append]
  rw [grammar, run_structured_object,
    run_bind_of_ok (run_members_spelled htakes hmembers hblanks rest)]
  -- nothing is reported behind the members
  refine congrArg₂ Progress.mk ((congrArg _ ?_).trans (List.append_nil _)) ?_
  · obtain ⟨angle, _ | w, rules⟩ := c <;> rfl
  · obtain ⟨angle, _ | w, _ | ps⟩ := c <;> rfl

/-- **Grammars in any arrangement.**  What is reported are the rules, in their order, and the
    grammar has the parts that the members hold. -/
theorem read_grammar_entries (h : Arranges c ms) (hspelled : SpellsEntries ms bytes) :
    read grammar bytes = ExceptT.mk ⟨c.scheme.events, c.grammar.mapError .document⟩ := by
  obtain ⟨before, object, after, hbefore, hobject, hafter, rfl⟩ := hspelled
  have hrun := (skipsBlanks_grammar.run_append hbefore _).trans
    (run_grammar_entries h hobject after)
  cases hgrammar : c.grammar with
  | ok g =>
    rw [hgrammar] at hrun
    exact read_of_run hrun hafter
  | error fault =>
    rw [hgrammar] at hrun
    exact read_of_error hrun

/-- The first part that is given again is a fault of the document. -/
theorem read_grammar_of_again (h : Unrepeated ms) (he : e ∈ ms) (hname : e.key ∈ partNames)
    (hspelled : SpellsUpTo ms e.key bytes) :
    read grammar bytes = ExceptT.mk ⟨(Contents.ofEntries ms).scheme.events,
      .error (.document (.unfit (.repeated e.key)))⟩ := by
  obtain ⟨before, front, lead, spelled, after, hbefore, hfront, hlead, hkey, rfl⟩ := hspelled
  refine read_of_error ?_
  rw [skipsBlanks_grammar.run_append hbefore, grammar, run_structured_object]
  rw [← List.isEmpty_map] at hlead
  exact run_bind_of_error (run_members_of_key (takesMembers_entries h) hfront hlead hkey
    (run_grammarMember_again he hname) after) _

/-- **A part that is given again**, or another one before it, is a fault of the document. -/
theorem read_grammar_again {key : Text} (hname : key ∈ partNames) (hkey : key ∈ ms.map Entry.key)
    (hspelled : SpellsUpTo ms key bytes) :
    ∃ again ∈ partNames, ∃ items, read grammar bytes
      = ExceptT.mk ⟨items, .error (.document (.unfit (.repeated again)))⟩ := by
  by_cases hms : Unrepeated ms
  · obtain ⟨e, he, rfl⟩ := List.mem_map.1 hkey
    exact ⟨e.key, hname, _, read_grammar_of_again hms he hname hspelled⟩
  · obtain ⟨front, again, back, rfl, hfront, hname, hagain⟩ := exists_again hms
    obtain ⟨e, he, hkey⟩ := List.mem_map.1 hagain
    have hspelled := hspelled.of_append
    rw [← hkey] at hname hspelled
    exact ⟨e.key, hname, _, read_grammar_of_again hfront he hname hspelled⟩

end Document

open Document

/-- What is read from a file is reported, if it is a grammar. -/
theorem Grammar.fromOpened_of_read {path : Text} {bytes : List UInt8} {items : List Event}
    {outcome : Except Error Grammar}
    (h : read Document.grammar bytes = ExceptT.mk ⟨items, outcome⟩) :
    fromOpened path (.ok (.bytes bytes))
      = ExceptT.mk ⟨items ++ loadedEvents path outcome, outcome⟩ := by
  have hopened : Document.fromOpened Document.grammar (.ok (.bytes bytes))
      = ExceptT.mk ⟨items, outcome⟩ := h
  refine Attempt.eq_of_parts ?_ ?_
  · rw [events_fromOpened, outcome_fromOpened, hopened]
    rfl
  · rw [outcome_fromOpened, hopened]
    rfl

/-- **Grammars are read in any arrangement.**  The members of a document with an angle, a start
    word and rules can stand in any order, be spelled in any way, have any blanks between their
    tokens, and any members with other names and with values of any shape between them: the same
    grammar is read from the file, with the same reports.  Without an angle it is zero, and without
    rules there are none.  Without a start word, or if one of the three names comes again, whatever
    stands behind it, the document does not fit. -/
theorem reads_any_arrangement :
    (∀ path c w ms bytes, Arranges c ms → c.start = some w → SpellsEntries ms bytes →
      Grammar.fromOpened path (.ok (.bytes bytes)) = ExceptT.mk
        ⟨c.scheme.events ++ [.loaded path c.scheme.value.size],
          .ok { angle := c.angle.getD .zero, start := w, scheme := c.scheme.value }⟩) ∧
    (∀ path c ms bytes, Arranges c ms → c.start = none → SpellsEntries ms bytes →
      Grammar.fromOpened path (.ok (.bytes bytes)) = ExceptT.mk
        ⟨c.scheme.events, .error (.document (.unfit (.missing "axiom".toList)))⟩) ∧
    ∀ path key ms bytes, key ∈ partNames → key ∈ ms.map Entry.key → SpellsUpTo ms key bytes →
      ∃ again ∈ partNames, (Grammar.fromOpened path (.ok (.bytes bytes))).outcome
        = .error (.document (.unfit (.repeated again))) := by
  refine ⟨fun path c w ms bytes h hstart hspelled => ?_,
    fun path c ms bytes h hstart hspelled => ?_,
    fun path key ms bytes hname hkey hspelled => ?_⟩
  · have hread := read_grammar_entries h hspelled
    rw [Contents.grammar, hstart] at hread
    exact Grammar.fromOpened_of_read hread
  · have hread := read_grammar_entries h hspelled
    rw [Contents.grammar, hstart] at hread
    rw [← List.append_nil c.scheme.events]
    exact Grammar.fromOpened_of_read hread
  · obtain ⟨again, hagain, items, hread⟩ := read_grammar_again hname hkey hspelled
    exact ⟨again, hagain, congrArg Attempt.outcome (Grammar.fromOpened_of_read hread)⟩

/-- A grammar with its rules in front and with a member that nobody asks for. -/
def scattered : Text :=
  " \x7b\"rules\":\x7b\"+\":\"\"\x7d,\"note\":[\x7b\"a\":null\x7d, 1] ,".toList
    ++ "\"angle\": 9E1,\"axiom\":\"F\"\x7d\n".toList

/-- The members of this grammar. -/
def scatteredMembers : List Entry :=
  [.rules [⟨'+', []⟩], .other "note".toList (by decide), .angle (.ofNat 90), .start "F".toList]

/-- What they say. -/
def scatteredContents : Contents where
  angle := some (.ofNat 90)
  start := some "F".toList
  rules := some [⟨'+', []⟩]

/-- Members of all kinds, in disorder, with blanks and with a rule for a mark. -/
theorem reads_any_arrangement_scattered :
    Arranges scatteredContents scatteredMembers ∧
      SpellsEntries scatteredMembers (Text.toBytes scattered) ∧
      Grammar.fromOpened "f.json".toList (.ok (.bytes (Text.toBytes scattered))) = ExceptT.mk
        ⟨[.unreachable '+', .defined '+' [], .loaded "f.json".toList 1],
          .ok { angle := .ofNat 90, start := "F".toList,
                scheme := (Scheme.collect [⟨'+', []⟩]).value }⟩ ∧
      Grammar.fromOpened "f.json".toList (.ok (.bytes (Text.toBytes "\x7b\x7d".toList)))
        = ExceptT.mk ⟨[], .error (.document (.unfit (.missing "axiom".toList)))⟩ ∧
      ∃ again ∈ partNames, (Grammar.fromOpened "f.json".toList (.ok (.bytes (Text.toBytes
          "\x7b\"axiom\":\"F\",\"axiom\":null\x7d".toList)))).outcome
        = .error (.document (.unfit (.repeated again))) := by
  have hnone : Blank [] := blank_nil
  have hcomma : Leads false [','.toUInt8] := .next hnone hnone
  have harranges : Arranges scatteredContents scatteredMembers := by
    refine ⟨[.other "note".toList (by decide)], by decide, ?_⟩
    show ([_, _] ++ [_, _]).Perm ([_, _] ++ [_, _])
    exact List.perm_append_comm
  -- the parts of the document, from the inside to the outside
  have hnine : SpellsDigits [9] ['9'.toUInt8] :=
    ⟨by decide, List.forall_mem_singleton.2 rfl, rfl⟩
  have hone : SpellsDigits [1] ['1'.toUInt8] :=
    ⟨by decide, List.forall_mem_singleton.2 rfl, rfl⟩
  have hangle : SpellsBinary64 (.ofNat 90) (Text.toBytes "9E1".toList) :=
    ⟨⟨false, [9], [], some 1⟩, .float (.ofNat 90), ⟨_, ⟨_, _, _, hnine, by decide, .none,
      .mark (.inr rfl) .none hone, rfl⟩, rfl⟩, by decide +kernel, rfl⟩
  have hblank : Blank [' '.toUInt8] := by decide
  have hkey : IsQuoted (String.utf8EncodeChar 'a' ++ []) :=
    .plain (by decide) (by decide) (by decide) .nil
  have hnull : IsValue (Text.toBytes "null".toList) := .literal (by decide)
  have hplain : SpellsNumber ⟨false, [1], [], none⟩ ['1'.toUInt8] :=
    ⟨_, ⟨_, _, _, hone, by decide, .none, .none, rfl⟩, rfl⟩
  have hnote : IsValue (Text.toBytes "[\x7b\"a\":null\x7d, 1]".toList) :=
    .brackets (.comma (.element hnone (.brackets (.member hnone hkey hnone hnone hnull hnone))
      hnone) (.element hblank (.number hplain) hnone))
  have hspelled : SpellsEntries scatteredMembers (Text.toBytes scattered) := by
    refine ⟨[' '.toUInt8], _, ['\n'.toUInt8], hblank, ⟨_, [], .cons (.first hnone)
      (spellsString_write _) hnone hnone ⟨_, [], .cons (.first hnone) (spellsString_write _) hnone
        hnone (spellsString_write _) .nil, hnone, rfl⟩ (.cons hcomma (spellsString_write _) hnone
      hnone hnote (.cons (.next hblank hnone) (spellsString_write _) hnone hblank hangle
      (.cons hcomma (spellsString_write _) hnone hnone (spellsString_write _) .nil))), hnone, rfl⟩,
      by decide, ?_⟩
    decide +kernel
  have hempty : SpellsEntries [] (Text.toBytes "\x7b\x7d".toList) :=
    ⟨[], _, [], hnone, ⟨[], [], .nil, hnone, rfl⟩, hnone, rfl⟩
  -- the second start word is found by its name, whatever its value is
  have hagain : SpellsUpTo [.start "F".toList] "axiom".toList
      (Text.toBytes "\x7b\"axiom\":\"F\",\"axiom\":null\x7d".toList) :=
    ⟨[], _, _, _, Text.toBytes ":null\x7d".toList, hnone, .cons (.first hnone)
      (spellsString_write _) hnone hnone (spellsString_write _) .nil, hcomma, spellsString_write _,
      by decide +kernel⟩
  refine ⟨harranges, hspelled, ?_, ?_, ?_⟩
  · exact reads_any_arrangement.1 _ _ _ _ _ harranges rfl hspelled
  · exact reads_any_arrangement.2.1 _ ⟨none, none, none⟩ _ _ ⟨[], by simp, .refl _⟩ rfl hempty
  · exact reads_any_arrangement.2.2 _ _ _ _ (by decide) (by decide) hagain

end D0L
