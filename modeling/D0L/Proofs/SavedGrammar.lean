import D0L.Proofs.Documents
import D0L.Proofs.Json.Numbers

namespace D0L

/-!
# Saved grammars

A grammar is saved in a file and loaded from there.  What comes back has the same start word and
the same productions, so it expands in the same way; its angle is the one that the reader finds in
what was written for the old one.  An angle that is no finite number is written as `null`, and then
nothing comes back.

* `Grammar.outcome_load_of_write` — what is loaded is what the document in the file gives.
* `Document.outcome_read_of_not_finite` — the fault that such an angle leads to.
* `Grammar.loads_what_it_saves` — saving and loading, for every grammar.
-/

open Json Json.Reader

namespace Document

/-- A fault in the value of a member is a fault of the member. -/
theorem run_once_of_error {α : Type} {value : Reader α} (hskip : SkipsBlanks value) {text : Text}
    {rest : List UInt8} {items : List Event} {fault : Fault}
    (h : value.run (Text.toBytes text ++ rest) = ⟨items, .error fault⟩) (key : Text)
    (layout : Layout) :
    (once key none value).run (Text.toBytes (layout.colon ++ text) ++ rest)
      = ⟨items, .error fault⟩ := by
  show (Json.Reader.colon >>= fun _ => value >>= fun a => pure (some a)).run _ = _
  rw [Text.toBytes_append, List.append_assoc, run_colon_bind (hskip.bind _) layout,
    run_bind_of_error h]

/-- A document with a fault has no value. -/
theorem outcome_read_of_error {α : Type} {reader : Reader α} {bytes : List UInt8}
    {items : List Event} {fault : Fault} (h : reader.run bytes = ⟨items, .error fault⟩) :
    (read reader bytes).outcome = .error (.document fault) := by
  rw [read_of_error h]
  rfl

/-- A grammar whose angle is no finite number is not read again. -/
theorem outcome_read_of_not_finite {g : Grammar} (hangle : g.angle.isFinite = false) :
    (read grammar (Text.toBytes g.file)).outcome
      = .error (.document (.unfit (.kind .null .number))) := by
  -- the angle is the first member, so nothing else is read before the fault
  have hmember (rest : List UInt8) :
      (grammarMember ⟨none, none, none⟩ "angle".toList).run
        (Text.toBytes (Layout.indented.colon ++ writeNumber g.angle) ++ rest)
          = ⟨[], .error (.unfit (.kind .null .number))⟩ := by
    rw [writeNumber_of_not_finite hangle]
    exact run_bind_of_error (run_once_of_error (skipsBlanks_wanting _ _) (number_null rest)
      "angle".toList .indented) fun angle => pure (⟨angle, none, none⟩ : GrammarParts)
  have hrun : (grammar).run (Text.toBytes g.file)
      = ⟨[], .error (.unfit (.kind .null .number))⟩ := by
    rw [Grammar.file, file, Text.toBytes_append, Grammar.json, writeObject_eq]
    refine (run_structured_object .grammar _ _ _).trans ?_
    exact run_bind_of_error (run_members_of_error .indented 0 _ _ _ _ (hmember _)) _
  exact outcome_read_of_error hrun

end Document

namespace Grammar

variable {path place : Text}

/-- Saving to a file sets its content to the text of the grammar. -/
theorem save_eq (hpath : Path.target path = .ok (.file place)) (g : Grammar) (folder : Folder) :
    g.save folder path
      = .ok { folder := folder.put place (Text.toBytes g.file), printed := [] } := by
  rw [save, Folder.write_eq hpath]
  rfl

/-- What is loaded after saving is what the document in the file gives. -/
theorem outcome_load_of_write (hpath : Path.target path = .ok (.file place)) {g : Grammar}
    {folder : Folder} {written : Written} (hwrite : folder.write path g.file = .ok written) :
    (load written.folder path).outcome
      = (Document.read Document.grammar (Text.toBytes g.file)).outcome := by
  have hopened : Document.fromOpened Document.grammar (.ok (.bytes (Text.toBytes g.file)))
      = Document.read Document.grammar (Text.toBytes g.file) := rfl
  rw [load, Folder.open_write hpath hwrite, fromOpened, Attempt.outcome_bind, hopened]
  -- the report on what has been loaded changes nothing
  cases (Document.read Document.grammar (Text.toBytes g.file)).outcome with
  | ok loaded => rfl
  | error e => rfl

/-- **Saved grammars.**  A grammar whose angle is a finite number is loaded again with the same
    start word, the same scheme, and the angle that is read in what was written for its own; so it
    expands as before.  A grammar with another angle is refused for a value that does not fit. -/
theorem loads_what_it_saves (hpath : Path.target path = .ok (.file place)) (folder : Folder)
    (g : Grammar) :
    ∃ written, g.save folder path = .ok written ∧
      (g.angle.isFinite = false →
        (load written.folder path).outcome
          = .error (.document (.unfit (.kind .null .number)))) ∧
      (g.angle.isFinite = true →
        ∃ loaded, (load written.folder path).outcome = .ok loaded ∧
          loaded.start = g.start ∧ loaded.scheme = g.scheme ∧
          (Document.read Json.Reader.number (Text.toBytes (writeNumber g.angle))).outcome
            = .ok loaded.angle ∧
          ∀ n limit, loaded.expand n = g.expand n ∧
            loaded.expandUnder limit n = g.expandUnder limit n ∧
            loaded.expandedLength n = g.expandedLength n ∧ loaded.report n = g.report n) := by
  -- what is loaded is what stands at the path after the writing
  have hwrite := Folder.write_eq hpath folder g.file
  refine ⟨_, save_eq hpath g folder, fun hangle => ?_, fun hangle => ?_⟩
  · rw [outcome_load_of_write hpath hwrite]
    exact Document.outcome_read_of_not_finite hangle
  · obtain ⟨angle, hnumber⟩ := exists_reads_number (ε := Event) hangle
    refine ⟨g.withAngle angle, ?_, rfl, rfl, ?_, fun n limit => ⟨rfl, rfl, rfl, rfl⟩⟩
    · rw [outcome_load_of_write hpath hwrite]
      exact Document.outcome_read_file (Document.reads_grammar .indented g hnumber)
    · exact Document.outcome_read_text hnumber

/-- A grammar that turns by a right angle, with a quote for a symbol. -/
def rightAngled : Grammar where
  angle := .ofNat 90
  start := "F\"".toList
  scheme := Document.quoteScheme

/-- A grammar that comes back, and the same one with an angle that no document can hold. -/
theorem loads_rightAngled :
    Path.target "system.json".toList = .ok (.file "system.json".toList) ∧
      (∃ written, rightAngled.save .empty "system.json".toList = .ok written ∧
        ∃ loaded, (load written.folder "system.json".toList).outcome = .ok loaded ∧
          loaded.start = rightAngled.start ∧ loaded.scheme = rightAngled.scheme) ∧
      ∃ written, (rightAngled.withAngle (.signed true .infinity)).save .empty "system.json".toList
          = .ok written ∧
        (load written.folder "system.json".toList).outcome
          = .error (.document (.unfit (.kind .null .number))) := by
  have hpath : Path.target "system.json".toList = .ok (.file "system.json".toList) := rfl
  obtain ⟨finite, hfinite, _, hloaded⟩ := loads_what_it_saves hpath .empty rightAngled
  obtain ⟨loaded, hload, hstart, hscheme, _⟩ := hloaded (by decide +kernel)
  obtain ⟨infinite, hinfinite, hrefused, _⟩ :=
    loads_what_it_saves hpath .empty (rightAngled.withAngle (.signed true .infinity))
  exact ⟨hpath, ⟨finite, hfinite, loaded, hload, hstart, hscheme⟩,
    infinite, hinfinite, hrefused (by decide)⟩

end Grammar

end D0L
