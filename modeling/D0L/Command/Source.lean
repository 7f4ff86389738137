import D0L.Command.Arguments
import D0L.Preset
import D0L.Report.Layout
import D0L.Storage

namespace D0L

/-!
# Sources

Where the grammar of a command comes from, and why a command can fail.

* `Failure` — why a command failed, with its message.
* `Source` — which grammar is meant; `Source.ofSettings?` reads it from the options that are set.
* `Source.resolve` — the grammar itself.
-/

/-- Why a command failed. -/
inductive Failure where
  /-- The grammar could not be read from its file. -/
  | cannotLoad (path : Text) (cause : Error)
  /-- There is no preset of this name. -/
  | unknownPreset (name : Text)
  /-- The options do not say which grammar is meant. -/
  | noGrammar
  /-- Something else went wrong. -/
  | failed (error : Error)
  /-- The grammar could not be saved. -/
  | cannotWrite (path : Text) (cause : Error)
deriving DecidableEq

/-- Why a command failed, in one line. -/
def Failure.message : Failure → Text
  | cannotLoad path _ => "failed to load L-system from ".toList ++ path
  | unknownPreset name =>
    "unknown preset ".toList ++ name.quoted ++ ", expected one of ".toList
      ++ Report.separated ", ".toList (Preset.all.map Preset.name)
  | noGrammar => "no L-system given, pass one of --system, --preset or --axiom".toList
  | failed error => error.message
  | cannotWrite path _ => "failed to write ".toList ++ path

/-- Which grammar is meant: one from a file, a preset, or just a start word, with productions and an
    angle on top. -/
structure Source where
  /-- The path of a grammar. -/
  grammar : Option Text
  /-- The name of a preset. -/
  preset : Option Text
  /-- The start word. -/
  start : Option Text
  /-- Lines with further productions. -/
  rules : List Text
  /-- Another angle. -/
  angle : Option Binary64
deriving DecidableEq

/-! ### From options -/

namespace Settings

/-- The values of an option. -/
def values (settings : Settings) (flag : Flag) : List Text :=
  settings.filterMap fun (f, value) => if f = flag then some value else none

/-- The value of an option, if it is set; nothing if it is set twice. -/
def atMostOne (settings : Settings) (flag : Flag) : Option (Option Text) :=
  match settings.values flag with
  | [] => some none
  | [value] => some (some value)
  | _ => none

/-- The value of an option, read by `parse`; nothing if it cannot be read or is set twice. -/
def parsed? {α : Type} (settings : Settings) (flag : Flag) (parse : Text → Option α) :
    Option (Option α) := do
  match ← settings.atMostOne flag with
  | none => return none
  | some value => return some (← parse value)

/-- A path, which must not be empty. -/
def path? (t : Text) : Option Text := if t = [] then none else some t

end Settings

namespace Source

/-- Which grammar the options mean. At most one of file, preset and start word may be set. -/
def ofSettings? (settings : Settings) : Option Source := do
  let grammar ← settings.parsed? .grammar Settings.path?
  let preset ← settings.atMostOne .preset
  let start ← settings.atMostOne .start
  let angle ← settings.parsed? .angle Binary64.ofText?
  if 1 < [grammar.isSome, preset.isSome, start.isSome].count true then none
  else return { grammar, preset, start, rules := settings.values .rule, angle }

/-! ### The grammar -/

/-- The grammar before productions and angle are added. A path is opened by `opener`. -/
def base (opener : Text → Except FileFault Opened) (source : Source) : Except Failure Grammar :=
  match source.grammar, source.preset, source.start with
  | some path, _, _ =>
    (Grammar.fromOpened path (opener path)).outcome.mapError (.cannotLoad path)
  | none, some name, _ =>
    match Preset.ofName? name with
    | some preset => .ok preset.grammar.value
    | none => .error (.unknownPreset name)
  -- a start word alone is a grammar without rules
  | none, none, some start => .ok { angle := .zero, start, scheme := .empty }
  | none, none, none => .error .noGrammar

/-- The grammar that is meant. -/
def resolve (opener : Text → Except FileFault Opened) (source : Source) :
    Except Failure Grammar := do
  let grammar ← source.base opener
  let productions ← (Production.ofLines source.rules).mapError .failed
  -- what is reported on the way is not part of what a command leaves behind
  let grammar := (grammar.extend productions).value
  return match source.angle with
    | some angle => grammar.withAngle angle
    | none => grammar

end Source

end D0L
