import D0L.Document
import D0L.Proofs.Json.Objects
import D0L.Storage

namespace D0L

/-!
# Documents are read as they are written

What is written for a word, a production, a scheme or a grammar is what its reader takes off, in
either layout; so a document is read back from a file and from its compact text.

* `Document.run_scheme_spelled` — the productions of an object are defined in the order in which
  they stand there, also if a symbol comes again.
* `Document.reads_word`, `Document.reads_scheme_json`, `Document.reads_production` — what is written
  for a word, for a scheme and for a production.
* `Document.takesMember_once` — a member that must not come again; `Document.takesMember_angle` and
  the like for the parts of a grammar.
* `Document.reads_grammar` — a grammar, if its angle can be read.
* `Document.read_append` — a whole document, with blanks behind it.
* `Document.Restores`, `Document.restores_scheme_production_word` — saving and reading back.
-/

open Json Json.Reader

/-- A production as the member of an object: its symbol for the key, and its successor. -/
def Production.entry (p : Production) : Text × Text := ([p.symbol], p.successor)

namespace Document

variable {α : Type} {reader : Reader α} {text : Text} {items : List Event} {a : α}

/-- What is reported while nothing is read. -/
theorem run_traced (t : Traced α) (input : List UInt8) :
    (traced t).run input = ⟨t.events, .ok (t.value, input)⟩ := by
  rw [traced, run_bind_of_ok (run_emit t.events input), run_pure, List.append_nil]

/-- A document is read if nothing but blanks is left behind its value. -/
theorem read_of_run {bytes blanks : List UInt8} (h : reader.run bytes = ⟨items, .ok (a, blanks)⟩)
    (hblanks : Blank blanks) :
    Document.read reader bytes = ExceptT.mk ⟨items, .ok a⟩ := by
  -- the blanks are passed over, and then the input is at its end
  have hpeek : (peek : Reader (Option UInt8)).run blanks = ⟨[], .ok (none, [])⟩ := by
    have hskip := skipsBlanks_peek (ε := Event).run_append hblanks []
    rw [List.append_nil] at hskip
    exact hskip
  have hdocument : (document reader).run bytes = ⟨items, .ok (a, [])⟩ := by
    rw [document, run_bind_of_ok h, run_bind_of_silent hpeek]
    simp
  rw [Document.read, hdocument]

/-- A fault ends the reading of a document. -/
theorem read_of_error {bytes : List UInt8} {fault : Fault}
    (h : reader.run bytes = ⟨items, .error fault⟩) :
    Document.read reader bytes = ExceptT.mk ⟨items, .error (.document fault)⟩ := by
  rw [Document.read, document, run_bind_of_error h]

/-- A document that a reader takes off, with blanks behind it. -/
theorem read_append (h : Reads reader text items a) {blanks : List UInt8}
    (hblanks : Blank blanks) :
    Document.read reader (Text.toBytes text ++ blanks) = ExceptT.mk ⟨items, .ok a⟩ :=
  read_of_run (h blanks (ends_of_blank hblanks)) hblanks

/-! ### Words -/

/-- A word is read back from its text. -/
theorem reads_word (w : Word) : Reads word (Word.json w) [] w := reads_textFor .text w

/-! ### Schemes -/

/-- One member of a scheme is one production, added to those before it. -/
theorem takesMember_definition (s : Scheme) (p : Production) :
    TakesMember (definition s [p.symbol]) (SpellsString p.successor) (s.add p).events
      (s.add p).value := by
  intro before after value hbefore hafter hvalue rest _
  have hskip : SkipsBlanks (word : Reader Word) := skipsBlanks_wanting _ _
  show (Json.Reader.colon >>= fun _ => word >>= fun successor =>
    traced (s.add { symbol := p.symbol, successor })).run _ = _
  have hword : word.run (value ++ rest) = ⟨[], .ok (p.successor, rest)⟩ :=
    run_textFor hvalue .text rest
  rw [run_colon_spelled (hskip.bind _) hbefore hafter, run_bind_of_silent hword, run_traced]

/-- The members of a scheme define its productions one after the other. -/
theorem takesMembers_definition (s : Scheme) (ps : List Production) :
    TakesMembers definition SpellsString s (ps.map Production.entry) (s.extend ps).events
      (s.extend ps).value := by
  -- the scheme grows with each member, so it is arbitrary in the induction
  induction ps generalizing s with
  | nil => exact .nil s
  | cons p ps ih =>
    rw [Scheme.extend_cons, Traced.events_bind, Traced.value_bind]
    exact .cons (takesMember_definition s p) (ih (s.add p).value)

/-- What follows the opening bracket of a scheme is read as its members. -/
theorem run_scheme (rest : List UInt8) :
    scheme.run ('{'.toUInt8 :: rest) = (members definition .empty).run rest := by
  have hopening : scheme.run ('{'.toUInt8 :: rest)
      = (Json.Reader.advance >>= fun _ => members definition .empty).run ('{'.toUInt8 :: rest) :=
    run_wanting_object_bind (a := ()) rfl _ rest
  rw [hopening, run_bind_of_silent (run_advance _ _)]

/-- An object from symbols to successors is read, however it is spelled, as the scheme that these
    productions make up. -/
theorem run_scheme_spelled {ps : List Production} {object : List UInt8}
    (h : SpellsObject SpellsString (ps.map Production.entry) object) (rest : List UInt8) :
    scheme.run (object ++ rest)
      = ⟨(Scheme.collect ps).events, .ok ((Scheme.collect ps).value, rest)⟩ := by
  obtain ⟨body, blanks, hmembers, hblank, rfl⟩ := h
  simp only [List.cons_append, List.append_assoc, List.nil_append]
  rw [run_scheme]
  exact run_members_spelled (takesMembers_definition .empty ps) hmembers hblank rest

theorem skipsBlanks_scheme : SkipsBlanks scheme := (skipsBlanks_wanting _ _).bind _

/-- A scheme is written as an object with one member for each production. -/
theorem Scheme.json_eq (layout : Layout) (depth : Nat) (scheme : Scheme) :
    scheme.json layout depth = writeObject layout depth
      ((scheme.productions.map Production.entry).map fun m => (m.1, Word.json m.2)) := by
  rw [Scheme.json, Scheme.productions, List.map_map, List.map_map]
  rfl

/-- A scheme is read from what is written for it, and its productions are defined on the way. -/
theorem reads_scheme_json (layout : Layout) (depth : Nat) (scheme : Scheme) :
    Reads Document.scheme (scheme.json layout depth)
      (Scheme.collect scheme.productions).events scheme := by
  intro rest _
  have hspelled := spellsObject_write spellsString_write layout depth
    (scheme.productions.map Production.entry)
  have hrun := run_scheme_spelled hspelled rest
  rw [Scheme.collect_productions] at hrun
  rw [Scheme.json_eq]
  exact hrun

/-! ### Productions -/

/-- Behind the key of a member that has not been read before, its value is read. -/
theorem run_once_spelled {value : Reader α} (hskip : SkipsBlanks value) {before after : List UInt8}
    (hbefore : Blank before) (hafter : Blank after) (key : Text) (rest : List UInt8) :
    (once key none value).run (before ++ ':'.toUInt8 :: (after ++ rest))
      = (value >>= fun a => pure (some a)).run rest :=
  run_colon_spelled (hskip.bind _) hbefore hafter rest

/-- A member that has been read before is a fault, whatever its value. -/
theorem run_once_again {before : Option α} (h : before = some a) (value : Reader α) (key : Text)
    (input : List UInt8) :
    (once key before value).run input = ⟨[], .error (.unfit (.repeated key))⟩ := by
  subst h
  rfl

/-- A member that has not been read before: its value is put into its place. -/
theorem takesMember_once {σ : Type} {value : Reader α} {Spells : List UInt8 → Prop}
    {before : Option α} (hnone : before = none) (h : Takes value Spells items a)
    (hskip : SkipsBlanks value) (key : Text) (put : Option α → σ) :
    TakesMember (once key before value >>= fun a => pure (put a)) Spells items (put (some a)) := by
  subst hnone
  intro before after bytes hbefore hafter hbytes rest hrest
  have honce : (once key none value).run (before ++ ':'.toUInt8 :: (after ++ (bytes ++ rest)))
      = ⟨items, .ok (some a, rest)⟩ := by
    rw [run_once_spelled hskip hbefore hafter, run_bind_of_ok (h hbytes rest hrest), run_pure,
      List.append_nil]
  rw [run_bind_of_ok honce, run_pure, List.append_nil]

/-- A production is read back from its text, in both layouts. -/
theorem reads_production (layout : Layout) (p : Production) :
    Reads production (p.json layout) [] p := by
  have hsymbol : TakesMember (productionMember ⟨none, none⟩ "symbol".toList)
      (IsWritten (writeString [p.symbol])) [] ⟨some p.symbol, none⟩ :=
    takesMember_once rfl (reads_character p.symbol).takes skipsBlanks_character "symbol".toList
      fun symbol => (⟨symbol, none⟩ : ProductionParts)
  have hsuccessor : TakesMember (productionMember ⟨some p.symbol, none⟩ "replacement".toList)
      (IsWritten (Word.json p.successor)) [] ⟨some p.symbol, some p.successor⟩ :=
    takesMember_once rfl (reads_word p.successor).takes (skipsBlanks_wanting _ _)
      "replacement".toList fun successor => (⟨some p.symbol, successor⟩ : ProductionParts)
  have hmembers : TakesMembers productionMember IsWritten ⟨none, none⟩ _ _ _ :=
    .cons hsymbol (.cons hsuccessor (.nil _))
  exact reads_structured hmembers (spellsObject_isWritten layout 0 _) rfl

/-! ### Grammars -/

section Grammar

variable {parts : GrammarParts} {Spells : List UInt8 → Prop}

/-- The angle of a grammar, unless there has been one. -/
theorem takesMember_angle (hnone : parts.angle = none) {angle : Binary64}
    (h : Takes (Json.Reader.number : Reader Binary64) Spells [] angle) :
    TakesMember (grammarMember parts "angle".toList) Spells []
      { parts with angle := some angle } :=
  takesMember_once hnone h (skipsBlanks_wanting _ _) "angle".toList
    fun angle => ({ parts with angle } : GrammarParts)

/-- The start word of a grammar, unless there has been one. -/
theorem takesMember_start (hnone : parts.start = none) {w : Word} (h : Takes word Spells [] w) :
    TakesMember (grammarMember parts "axiom".toList) Spells [] { parts with start := some w } :=
  takesMember_once hnone h (skipsBlanks_wanting _ _) "axiom".toList
    fun start => ({ parts with start } : GrammarParts)

/-- The rules of a grammar, unless there have been some. -/
theorem takesMember_rules (hnone : parts.scheme = none) {s : Scheme}
    (h : Takes scheme Spells items s) :
    TakesMember (grammarMember parts "rules".toList) Spells items
      { parts with scheme := some s } :=
  takesMember_once hnone h skipsBlanks_scheme "rules".toList
    fun scheme => ({ parts with scheme } : GrammarParts)

end Grammar

/-- A grammar is read from what is written for it, with the angle that is read there. -/
theorem reads_grammar (layout : Layout) (g : Grammar) {angle : Binary64}
    (hangle : Reads (Json.Reader.number : Reader Binary64) (writeNumber g.angle) [] angle) :
    Reads grammar (g.json layout) (Scheme.collect g.scheme.productions).events
      (g.withAngle angle) := by
  have hmembers : TakesMembers grammarMember IsWritten ⟨none, none, none⟩ _ _ _ :=
    .cons (takesMember_angle rfl hangle.takes)
      (.cons (takesMember_start rfl (reads_word g.start).takes)
        (.cons (takesMember_rules rfl (reads_scheme_json layout 1 g.scheme).takes) (.nil _)))
  rw [List.nil_append, List.nil_append, List.append_nil] at hmembers
  exact reads_structured hmembers (spellsObject_isWritten layout 0 _) rfl

/-! ### Saving and reading -/

/-- A value is read back from the file that it has been saved in, and from its compact text. -/
def Restores (reader : Reader α) (json : Layout → Text) (folder : Folder) (path : Text)
    (a : α) : Prop :=
  (∃ written, folder.write path (file (json .indented)) = .ok written ∧
    ∀ input, (fromOpened reader (written.folder.open input path)).outcome = .ok a) ∧
  (read reader (Text.toBytes (json .compact))).outcome = .ok a

/-- A file has a line end behind the document, which does not matter. -/
theorem outcome_read_file (h : Reads reader text items a) :
    (read reader (Text.toBytes (file text))).outcome = .ok a := by
  have hblanks : Blank (Text.toBytes Layout.indented.ending) :=
    blank_lineBreak .indented 0
  rw [file, Text.toBytes_append, read_append h hblanks]
  rfl

/-- A compact text has nothing behind the document. -/
theorem outcome_read_text (h : Reads reader text items a) :
    (read reader (Text.toBytes text)).outcome = .ok a := by
  have hread := read_append h blank_nil
  rw [List.append_nil] at hread
  rw [hread]
  rfl

/-- What a reader reads from the text of a value is what comes back from a file and from a compact
    text. -/
theorem restores_of_reads {json : Layout → Text}
    (h : ∀ layout, ∃ items, Reads reader (json layout) items a) {path place : Text}
    (hpath : Path.target path = .ok (.file place)) (folder : Folder) :
    Restores reader json folder path a := by
  -- a file is indented, and text in memory is compact
  obtain ⟨_, hindented⟩ := h .indented
  obtain ⟨_, hcompact⟩ := h .compact
  have hwrite := Folder.write_eq hpath folder (file (json .indented))
  refine ⟨⟨_, hwrite, fun input => ?_⟩, ?_⟩
  · rw [Folder.open_write hpath hwrite]
    exact outcome_read_file hindented
  · exact outcome_read_text hcompact

/-- **Reading undoes writing.**  Every scheme, every production and every word is read back, from
    the file that it has been saved in and from its compact text. -/
theorem restores_scheme_production_word {path place : Text}
    (hpath : Path.target path = .ok (.file place)) (folder : Folder) :
    (∀ scheme : Scheme,
      Restores Document.scheme (fun layout => scheme.json layout 0) folder path scheme) ∧
    (∀ p : Production, Restores production (fun layout => p.json layout) folder path p) ∧
    (∀ w : Word, Restores word (fun _ => w.json) folder path w) := by
  refine ⟨fun scheme => ?_, fun p => ?_, fun w => ?_⟩
  · exact restores_of_reads (fun layout => ⟨_, reads_scheme_json layout 0 scheme⟩) hpath folder
  · exact restores_of_reads (fun layout => ⟨_, reads_production layout p⟩) hpath folder
  · exact restores_of_reads (fun _ => ⟨_, reads_word w⟩) hpath folder

/-- A scheme with a quote for a symbol, and with a backslash and a control in a successor. -/
def quoteScheme : Scheme where
  successors := (∅ : SymbolMap Word).insert '"' ['\\', '\x01', '\"']

/-- Symbols that are escaped in a document come back as well. -/
theorem restores_quoteScheme :
    Path.target "rules.json".toList = .ok (.file "rules.json".toList) ∧
      Restores Document.scheme (fun layout => quoteScheme.json layout 0) .empty
        "rules.json".toList quoteScheme :=
  have hpath : Path.target "rules.json".toList = .ok (.file "rules.json".toList) := rfl
  ⟨hpath, (restores_scheme_production_word hpath .empty).1 quoteScheme⟩

end Document

end D0L
