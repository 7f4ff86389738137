import D0L.Proofs.Json.CutNumbers
import D0L.Proofs.SavedGrammar

namespace D0L

/-!
# Files that are cut off

A file that has been written for a scheme or for a grammar lacks something wherever it is cut off,
unless only its line end is missing.  Reading it ends with the fault that says so, and never with a
value or with another fault.

* `Document.breaks_scheme`, `Document.breaks_grammar` — the readers on cuts of what is written.
* `refuses_cut_files` — all files of schemes and grammars, cut off at any byte.
-/

open Json Json.Reader

namespace Document

variable {α σ : Type} {reader : Reader α} {text : Text} {bytes cut : List UInt8}

/-! ### Readers -/

/-- A member that has not been read before. -/
theorem starves_once {value : Reader α} (hskip : SkipsBlanks value)
    (hempty : (value.run []).outcome = .error .cutShort) (h : Starves value (Text.toBytes text))
    (key : Text) (layout : Layout) (put : Option α → σ) :
    Starves (once key none value >>= fun a => pure (put a))
      (Text.toBytes (layout.colon ++ text)) := by
  rw [Text.toBytes_append]
  have honce := starves_colon (hskip.bind fun a => pure (some a))
    (outcome_bind_of_error hempty _) (h.bind_pure some) layout
  exact Starves.bind_pure (r := once key none value) honce put

/-- A successor that is cut off is missed wherever that happens. -/
theorem starves_definition (layout : Layout) (scheme : Scheme) (s : Symbol) (w : Word) :
    Starves (definition scheme [s]) (Text.toBytes (layout.colon ++ Word.json w)) := by
  rw [Text.toBytes_append]
  have hskip : SkipsBlanks (word : Reader Word) := skipsBlanks_wanting _ _
  have hword : Breaks (word : Reader Word) (Text.toBytes (Word.json w)) := breaks_textFor .text w
  exact starves_colon (hskip.bind _) (outcome_bind_of_error (outcome_wanting_nil _ _) _)
    (hword.bind fun successor => traced (scheme.add { symbol := s, successor })).starves layout

/-- And so is every other successor in a scheme. -/
theorem starvesMembers_definition (layout : Layout) (scheme : Scheme) (ps : List Production) :
    StarvesMembers definition layout scheme
      ((ps.map Production.entry).map fun m => (m.1, Word.json m.2)) := by
  induction ps generalizing scheme with
  | nil => exact .nil scheme
  | cons p ps ih =>
    have hmember := takesMember_definition scheme p
    exact .cons (hmember.reads (spellsString_write p.successor) layout)
      (starves_definition layout scheme p.symbol p.successor) (ih _)

/-- What is written for a scheme, cut off. -/
theorem breaks_scheme (layout : Layout) (depth : Nat) (scheme : Scheme) :
    Breaks Document.scheme (Text.toBytes (scheme.json layout depth)) := by
  have hmembers := breaks_members (starvesMembers_definition layout .empty scheme.productions) depth
  rw [Scheme.json_eq, writeObject_eq]
  intro cut hcut
  have hcut : IsCutOf cut ('{'.toUInt8 :: Text.toBytes (writeBody layout depth _)) := hcut
  rcases hcut.cases_cons with rfl | ⟨c, rfl, hc⟩
  · exact outcome_bind_of_error (outcome_wanting_nil _ _) _
  · rw [run_scheme]
    exact hmembers c hc

/-- What is written for a grammar with a finite angle, cut off. -/
theorem breaks_grammar (layout : Layout) {g : Grammar} (hangle : g.angle.isFinite = true) :
    Breaks grammar (Text.toBytes (g.json layout)) := by
  obtain ⟨angle, hnumber⟩ := exists_reads_number (ε := Event) hangle
  -- each member by itself, behind those in front of it
  have hfirst : Starves (grammarMember ⟨none, none, none⟩ "angle".toList)
      (Text.toBytes (layout.colon ++ writeNumber g.angle)) :=
    starves_once (skipsBlanks_wanting _ _) (outcome_wanting_nil _ _) (starves_number hangle)
      "angle".toList layout fun angle => (⟨angle, none, none⟩ : GrammarParts)
  have hsecond : Starves (grammarMember ⟨some angle, none, none⟩ "axiom".toList)
      (Text.toBytes (layout.colon ++ Word.json g.start)) :=
    starves_once (skipsBlanks_wanting _ _) (outcome_wanting_nil _ _)
      (breaks_textFor .text g.start).starves "axiom".toList layout
      fun start => (⟨some angle, start, none⟩ : GrammarParts)
  have hthird : Starves (grammarMember ⟨some angle, some g.start, none⟩ "rules".toList)
      (Text.toBytes (layout.colon ++ g.scheme.json layout 1)) :=
    starves_once skipsBlanks_scheme (outcome_bind_of_error (outcome_wanting_nil _ _) _)
      (breaks_scheme layout 1 g.scheme).starves "rules".toList layout
      fun scheme => (⟨some angle, some g.start, scheme⟩ : GrammarParts)
  -- then all three, one behind the other
  have hmembers : StarvesMembers grammarMember layout ⟨none, none, none⟩
      [("angle".toList, writeNumber g.angle), ("axiom".toList, Word.json g.start),
        ("rules".toList, g.scheme.json layout 1)] :=
    .cons ((takesMember_angle rfl hnumber.takes).reads rfl layout) hfirst
      (.cons ((takesMember_start rfl (reads_word g.start).takes).reads rfl layout) hsecond
        (.cons ((takesMember_rules rfl (reads_scheme_json layout 1 g.scheme).takes).reads rfl
          layout) hthird (.nil _)))
  rw [Grammar.json, writeObject_eq]
  exact breaks_structured ((breaks_members hmembers 0).bind _)

/-! ### Documents -/

/-- **A document that is cut off is not read,** and the fault says so. -/
theorem outcome_read_of_isCutOf (h : Breaks reader bytes) (hcut : IsCutOf cut bytes) :
    (read reader cut).outcome = .error (.document .cutShort) := by
  have hdocument : ((document reader).run cut).outcome = .error .cutShort :=
    outcome_bind_of_error (h cut hcut) _
  rw [read, hdocument]
  rfl

/-- A file that lacks more than its line end lacks a part of its value. -/
theorem isCutOf_of_file (hcut : cut <+: Text.toBytes (file text))
    (hwhole : cut ≠ Text.toBytes (file text))
    (hending : cut ++ ['\n'.toUInt8] ≠ Text.toBytes (file text)) :
    IsCutOf cut (Text.toBytes text) := by
  have hfile : Text.toBytes (file text) = Text.toBytes text ++ ['\n'.toUInt8] :=
    Text.toBytes_append _ _
  rw [hfile] at hcut hwhole hending
  rcases (isCutOf_of_isPrefix hcut hwhole).cases_append with hcut | ⟨c, rfl, hc⟩
  · exact hcut
  · rcases hc.cases_cons with rfl | ⟨d, rfl, hd⟩
    · exact absurd (by rw [List.append_nil]) hending
    · exact absurd hd not_isCutOf_nil

/-- What is read from a file that has been found. -/
theorem fromOpened_of_content {path place : Text} (hpath : Path.target path = .ok (.file place))
    {folder : Folder} (hcontent : folder.content? place = some bytes) (input : List UInt8) :
    fromOpened reader (folder.open input path) = read reader bytes := by
  have hopened : folder.open input path = .ok (.bytes bytes) := by
    rw [Folder.open, hpath]
    simp [bind, Except.bind, pure, Except.pure, hcontent]
  rw [hopened]
  rfl

end Document

open Document

/-- **Files that are cut off.**  A file has the first bytes of what is saved for a scheme or for a
    grammar with a finite angle, and lacks more than the line end behind them.  Then reading it ends
    with the fault that the text ends too early. -/
theorem refuses_cut_files {path place : Text} (hpath : Path.target path = .ok (.file place))
    {folder : Folder} {cut : List UInt8} (hcontent : folder.content? place = some cut) :
    (∀ scheme : Scheme, cut <+: Text.toBytes (file (scheme.json .indented 0)) →
      cut ≠ Text.toBytes (file (scheme.json .indented 0)) →
      cut ++ ['\n'.toUInt8] ≠ Text.toBytes (file (scheme.json .indented 0)) →
      ∀ input, (fromOpened Document.scheme (folder.open input path)).outcome
        = .error (.document .cutShort)) ∧
    (∀ g : Grammar, g.angle.isFinite = true → cut <+: Text.toBytes g.file →
      cut ≠ Text.toBytes g.file → cut ++ ['\n'.toUInt8] ≠ Text.toBytes g.file →
      (Grammar.load folder path).outcome = .error (.document .cutShort)) := by
  constructor
  · intro scheme hcut hwhole hending input
    rw [fromOpened_of_content hpath hcontent]
    exact outcome_read_of_isCutOf (breaks_scheme .indented 0 scheme)
      (isCutOf_of_file hcut hwhole hending)
  · intro g hangle hcut hwhole hending
    have hread := outcome_read_of_isCutOf (breaks_grammar .indented hangle)
      (isCutOf_of_file hcut hwhole hending)
    rw [Grammar.load, Grammar.fromOpened, Attempt.outcome_bind,
      fromOpened_of_content hpath hcontent, hread]

/-- A scheme that is cut off inside an escape, and a grammar that is cut off behind a point. -/
theorem refuses_cut_quoteScheme :
    Path.target "cut.json".toList = .ok (.file "cut.json".toList) ∧
      (∀ input, (fromOpened Document.scheme ((Folder.empty.put "cut.json".toList
        (Text.toBytes "\x7b\n  \"\\".toList)).open input "cut.json".toList)).outcome
          = .error (.document .cutShort)) ∧
      (Grammar.load (Folder.empty.put "cut.json".toList
        (Text.toBytes "\x7b\n  \"angle\": 90.".toList)) "cut.json".toList).outcome
          = .error (.document .cutShort) := by
  have hpath : Path.target "cut.json".toList = .ok (.file "cut.json".toList) := rfl
  have hcontent (cut : List UInt8) :
      (Folder.empty.put "cut.json".toList cut).content? "cut.json".toList = some cut := rfl
  have hscheme := (refuses_cut_files hpath (hcontent (Text.toBytes "\x7b\n  \"\\".toList))).1
    quoteScheme (by decide +kernel) (by decide +kernel) (by decide +kernel)
  have hgrammar := (refuses_cut_files hpath
    (hcontent (Text.toBytes "\x7b\n  \"angle\": 90.".toList))).2 Grammar.rightAngled
    (by decide +kernel) (by decide +kernel) (by decide +kernel) (by decide +kernel)
  exact ⟨hpath, hscheme, hgrammar⟩

end D0L
