import D0L.Json.Reader
import D0L.Grammar

namespace D0L

/-!
# Documents

How words, productions, schemes and grammars are written in files and read back.

* `Word.json`, `Production.json`, `Scheme.json`, `Grammar.json` — the text of a value in some
  layout.
* `Document.file` — the text of a file.
* `Document.word`, `Document.production`, `Document.scheme`, `Document.grammar` — readers; each
  definition of a production is reported while it is read.
* `Document.read` — runs a reader on a whole document.
-/

open Json

/-! ### Writing -/

/-- The text of a word, without line ends. -/
def Word.json (w : Word) : Text := writeString w

/-- The text of a production. -/
def Production.json (layout : Layout) (p : Production) : Text :=
  writeObject layout 0
    [("symbol".toList, writeString [p.symbol]), ("replacement".toList, Word.json p.successor)]

/-- The text of a scheme at a nesting depth: an object from symbols to successors. -/
def Scheme.json (layout : Layout) (depth : Nat) (scheme : Scheme) : Text :=
  writeObject layout depth
    (scheme.successors.entries.map fun (symbol, successor) => ([symbol], Word.json successor))

/-- The text of a grammar. -/
def Grammar.json (layout : Layout) (g : Grammar) : Text :=
  writeObject layout 0
    [("angle".toList, writeNumber g.angle), ("axiom".toList, Word.json g.start),
      ("rules".toList, g.scheme.json layout 1)]

namespace Document

/-- The text of a file that holds a document: one value with a line end behind it. -/
def file (value : Text) : Text := value ++ Layout.indented.ending

/-! ### Reading -/

/-- A reader that reports events. -/
abbrev Reader := Json.Reader Event

/-- Does something traced while reading. -/
def traced {α : Type} (t : Traced α) : Reader α := do
  Json.Reader.emit t.events
  return t.value

/-- Reads a word: any string. -/
def word : Reader Word := Json.Reader.text

/-- Reads the member of a scheme whose key has been read, and defines it. -/
def definition (scheme : Scheme) (key : Text) : Reader Scheme := do
  -- the key is judged before its value is read
  let symbol ← Json.Reader.only key
  Json.Reader.colon
  let successor ← word
  traced (scheme.add { symbol, successor })

/-- Reads a scheme: an object with a symbol as the key of each member. -/
def scheme : Reader Scheme := do
  Json.Reader.wanting .scheme fun
    | .object => some ()
    | _ => none
  Json.Reader.advance
  Json.Reader.members definition .empty

/-- Reads the value of a member that must not have been read before. -/
def once {α : Type} (key : Text) (before : Option α) (value : Reader α) : Reader (Option α) := do
  -- the fault comes before the colon is looked for
  if before.isSome then Json.Reader.fail (.unfit (.repeated key))
  Json.Reader.colon
  return some (← value)

/-- Passes over a member that nobody asked for. -/
def other : Reader Unit := do
  Json.Reader.colon
  Json.Reader.ignored

/-- What must be there. -/
def required {α : Type} (misfit : Misfit) : Option α → Reader α
  | some a => return a
  | none => Json.Reader.fail (.unfit misfit)

/-- The parts of a production that have been read. -/
structure ProductionParts where
  /-- The symbol. -/
  symbol : Option Symbol
  /-- The successor. -/
  successor : Option Word

/-- Reads one member of a production. -/
def productionMember (parts : ProductionParts) (key : Text) : Reader ProductionParts := do
  if key = "symbol".toList then
    return { parts with symbol := ← once key parts.symbol Json.Reader.character }
  else if key = "replacement".toList then
    return { parts with successor := ← once key parts.successor word }
  else
    other
    return parts

/-- Reads a production: an object with both parts, or an array of them. -/
def production : Reader Production :=
  Json.Reader.structured .production
    (do
      let parts ← Json.Reader.members productionMember ⟨none, none⟩
      let symbol ← required (.missing "symbol".toList) parts.symbol
      let successor ← required (.missing "replacement".toList) parts.successor
      return { symbol, successor })
    (do
      let symbol ← required (.tooShort 0 .production)
        (← Json.Reader.element true Json.Reader.character)
      let successor ← required (.tooShort 1 .production) (← Json.Reader.element false word)
      return { symbol, successor })

/-- The parts of a grammar that have been read. -/
structure GrammarParts where
  /-- The angle. -/
  angle : Option Binary64
  /-- The start word. -/
  start : Option Word
  /-- The scheme. -/
  scheme : Option Scheme

/-- Reads one member of a grammar. -/
def grammarMember (parts : GrammarParts) (key : Text) : Reader GrammarParts := do
  if key = "angle".toList then
    return { parts with angle := ← once key parts.angle Json.Reader.number }
  else if key = "axiom".toList then
    return { parts with start := ← once key parts.start word }
  else if key = "rules".toList then
    return { parts with scheme := ← once key parts.scheme scheme }
  else
    other
    return parts

/-- Reads a grammar: an object or an array. Only the start word has to be there; the angle of a
    grammar without one is zero, and its scheme is empty. -/
def grammar : Reader Grammar :=
  Json.Reader.structured .grammar
    (do
      let parts ← Json.Reader.members grammarMember ⟨none, none, none⟩
      let start ← required (.missing "axiom".toList) parts.start
      return { angle := parts.angle.getD .zero, start, scheme := parts.scheme.getD .empty })
    (do
      let angle ← Json.Reader.element true Json.Reader.number
      -- behind a missing angle the next element is still the first one
      let start ← required (.tooShort 1 .grammar)
        (← Json.Reader.element (angle.isNone) word)
      let scheme ← Json.Reader.element false scheme
      return { angle := angle.getD .zero, start, scheme := scheme.getD .empty })

/-- Reads a whole document. -/
def read {α : Type} (reader : Reader α) (bytes : List UInt8) : Attempt α :=
  let progress := (Json.Reader.document reader).run bytes
  ExceptT.mk ⟨progress.emitted, match progress.outcome with
    | .ok (a, _) => .ok a
    | .error fault => .error (.document fault)⟩

end Document

end D0L
