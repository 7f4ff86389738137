import D0L.Command.Source
import D0L.Dialogue

namespace D0L

/-!
# Tasks

What a command does that needs no input from the console.

* `Task` — a task with its options.
* `Work` — what a task comes to when nothing goes wrong: a grammar to save, and text to print.
* `Task.work` — the work of a task, given what its paths lead to.
-/

/-- A task with its options. -/
inductive Task where
  /-- Print a generation, under a limit on the length of all that lead to it. -/
  | expand (source : Source) (count : Int) (limit : Option Nat)
  /-- Print the report on a grammar, as comma separated values or as a table. -/
  | stats (source : Source) (count : Nat) (csv : Bool)
  /-- Save a grammar. -/
  | save (source : Source) (path : Text)
  /-- List the presets. -/
  | presets
deriving DecidableEq

/-- What a task comes to when nothing goes wrong. -/
structure Work where
  /-- The path to save to and the grammar to save there, if there is one. -/
  saved : Option (Text × Grammar)
  /-- What to print afterwards. -/
  output : Text
deriving DecidableEq

/-! ### Printing -/

/-- Text in bold or colour, where the terminal shows it. -/
def emphasised (color : Bool) (code : Text) (t : Text) : Text :=
  if color then "\x1b[".toList ++ code ++ 'm' :: t ++ "\x1b[0m".toList else t

/-- A preset in the list of presets. -/
def Preset.listing (color : Bool) (p : Preset) : Text :=
  let grammar := p.grammar.value
  emphasised color "1;32".toList p.name ++ " (angle ".toList ++ grammar.angle.plain
    ++ ", axiom ".toList ++ grammar.start ++ ")\n".toList
    ++ grammar.scheme.productions.flatMap fun p => "  ".toList ++ p.display ++ ['\n']

/-- The report on a grammar as a table, under its definition. -/
def Grammar.overview (color : Bool) (g : Grammar) (count : Nat) : Text :=
  emphasised color ['1'] "Axiom:".toList ++ ' ' :: g.start ++ '\n'
    :: emphasised color ['1'] "Rules:".toList ++ '\n' :: g.scheme.display ++ "\n\n".toList
    ++ Report.table (g.report count) ++ ['\n']

/-! ### Work -/

namespace Task

/-- Which grammar a task is about. -/
def source? : Task → Option Source
  | expand source .. | stats source .. | save source .. => some source
  | presets => none

/-- The work of a task. A path is opened by `opener`. -/
def work (color : Bool) (opener : Text → Except FileFault Opened) : Task → Except Failure Work
  | expand source count limit => do
    let grammar ← source.resolve opener
    let (count, result) ← (grammar.expandCount limit count).outcome.mapError .failed
    return { saved := none, output := resultLine count result }
  | stats source count csv => do
    let grammar ← source.resolve opener
    let output := if csv then Report.csv (grammar.report count) else grammar.overview color count
    return { saved := none, output }
  | save source path => do
    let grammar ← source.resolve opener
    let output := "Saved L-system to ".toList ++ path.quoted ++ ['\n']
    return { saved := some (path, grammar), output }
  | presets => return { saved := none, output := Preset.all.flatMap (Preset.listing color) }

end Task

end D0L
