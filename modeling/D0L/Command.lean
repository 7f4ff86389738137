import D0L.Command.Task

namespace D0L

/-!
# Commands

What the command line can be asked to do, and what it leaves behind.

* `Command` — a dialogue or a task; `Command.ofArguments?` reads the arguments.
* `Command.run` — a command in a folder, with some input on the console.
-/

/-- What the command line can be asked to do. -/
inductive Command where
  /-- Hold a dialogue, under a limit on the length of generations. -/
  | interactive (limit : Option Nat)
  /-- Do a task. -/
  | task (task : Task)
deriving DecidableEq

/-- What came of a command. -/
inductive Status where
  /-- It did what it was asked to. -/
  | success
  /-- It failed. -/
  | failure (failure : Failure)
  /-- The arguments make no command. -/
  | usage
deriving DecidableEq

/-- What a command leaves behind. -/
structure Aftermath where
  /-- What came of it. -/
  status : Status
  /-- What was printed. -/
  output : Text
  /-- The folder. -/
  folder : Folder

/-! ### From arguments -/

namespace Command

/-- A command from its name and the options that are set. -/
def ofSettings? (verb : Verb) (settings : Settings) : Option Command := do
  match verb with
  | .interactive => return .interactive (← settings.parsed? .maxLength Numeral.word?)
  | .expand =>
    let source ← Source.ofSettings? settings
    let count ← ← settings.parsed? .iterations Numeral.signed?
    return .task (.expand source count (← settings.parsed? .maxLength Numeral.word?))
  | .stats =>
    let source ← Source.ofSettings? settings
    let count ← ← settings.parsed? .iterations Numeral.word?
    return .task (.stats source count (← settings.atMostOne .csv).isSome)
  | .save =>
    let source ← Source.ofSettings? settings
    let path ← ← settings.parsed? .output Settings.path?
    return .task (.save source path)
  | .presets => return .task .presets

/-- The command that some arguments ask for. Without a name it is a dialogue. -/
def ofArguments? : List Text → Option Command
  | [] => some (.interactive none)
  | name :: rest =>
    -- two dashes end the options, and there are none
    if name = ['-', '-'] ∧ rest = [] then some (.interactive none)
    else do
      let verb ← Verb.ofName? name
      ofSettings? verb (← Settings.ofArguments? verb rest)

/-! ### Running -/

/-- Saves what there is to save, and prints. -/
def carryOut (folder : Folder) (work : Work) : Aftermath :=
  match work.saved with
  | none => { status := .success, output := work.output, folder }
  | some (path, grammar) =>
    match grammar.save folder path with
    | .ok written =>
      -- a device may have shown the document, before the line that says where it went
      { status := .success, output := written.printed ++ work.output, folder := written.folder }
    | .error e => { status := .failure (.cannotWrite path e), output := [], folder }

/-- Runs a command in a folder, with some input on the console. -/
def run (color : Bool) (folder : Folder) (input : List UInt8) : Command → Aftermath
  | .interactive limit =>
    let dialogue := Dialogue.ofInput limit input
    match dialogue.outcome with
    | .ok _ => { status := .success, output := dialogue.output, folder }
    | .error e => { status := .failure (.failed e), output := dialogue.output, folder }
  | .task t =>
    match t.work color (folder.open input) with
    | .ok work => carryOut folder work
    | .error failure => { status := .failure failure, output := [], folder }

/-- Runs the command that some arguments ask for. -/
def runArguments (color : Bool) (folder : Folder) (input : List UInt8) (arguments : List Text) :
    Aftermath :=
  match ofArguments? arguments with
  | some command => command.run color folder input
  | none => { status := .usage, output := [], folder }

end Command

end D0L
