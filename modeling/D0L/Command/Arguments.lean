import D0L.Text.Basic

namespace D0L

/-!
# Arguments of the command line

The first argument names a command, and the others set options of it. An option has a long name
after two dashes or one letter after a single dash. Its value is attached to it, after an equals
sign or right behind the letter, or it is the next argument.

* `Verb`, `Flag` — the commands and their options.
* `Argument.classify` — what one argument is.
* `Settings.ofArguments?` — the options that some arguments set, in order, or nothing if an
  argument is misplaced.
-/

/-- A command by name. -/
inductive Verb where
  /-- A dialogue on the console. -/
  | interactive
  /-- Expansion of a grammar. -/
  | expand
  /-- The report on a grammar. -/
  | stats
  /-- Saving a grammar. -/
  | save
  /-- The list of presets. -/
  | presets
deriving DecidableEq

/-- An option of a command. -/
inductive Flag where
  /-- The path of a grammar. -/
  | grammar
  /-- The name of a preset. -/
  | preset
  /-- The start word. -/
  | start
  /-- A production. -/
  | rule
  /-- The angle. -/
  | angle
  /-- The number of generations. -/
  | iterations
  /-- The limit on the length of generations. -/
  | maxLength
  /-- Comma separated values instead of a table; takes no value. -/
  | csv
  /-- The path to save to. -/
  | output
deriving DecidableEq

namespace Verb

/-- All commands. -/
def all : List Verb := [interactive, expand, stats, save, presets]

/-- The name of a command. -/
def name : Verb → Text
  | interactive => "interactive".toList
  | expand => "expand".toList
  | stats => "stats".toList
  | save => "save".toList
  | presets => "presets".toList

/-- The command of a name. -/
def ofName? (name : Text) : Option Verb := all.find? fun v => v.name = name

/-- The options that say which grammar is meant. -/
def sourceFlags : List Flag := [.grammar, .preset, .start, .rule, .angle]

/-- The options of a command. -/
def flags : Verb → List Flag
  | interactive => [.maxLength]
  | expand => sourceFlags ++ [.iterations, .maxLength]
  | stats => sourceFlags ++ [.iterations, .csv]
  | save => sourceFlags ++ [.output]
  | presets => []

end Verb

namespace Flag

/-- The long name of an option. -/
def name : Flag → Text
  | grammar => "system".toList
  | preset => "preset".toList
  | start => "axiom".toList
  | rule => "rule".toList
  | angle => "angle".toList
  | iterations => "iterations".toList
  | maxLength => "max-length".toList
  | csv => "csv".toList
  | output => "output".toList

/-- The letter of an option. -/
def letter? : Flag → Option Char
  | grammar => some 's'
  | preset => some 'p'
  | start => some 'a'
  | rule => some 'r'
  | iterations => some 'n'
  | output => some 'o'
  | _ => none

/-- Whether the value may be a separate argument that looks like a negative number. -/
def takesNegative (verb : Verb) : Flag → Bool
  | angle => true
  | iterations => verb = .expand
  | _ => false

end Flag

/-- What one argument is. -/
inductive Argument where
  /-- An option together with its value. -/
  | complete (flag : Flag) (value : Text)
  /-- An option whose value is the next argument. -/
  | pending (flag : Flag)
  /-- Two dashes, after which no options stand. -/
  | ending
  /-- Nothing that the command knows. -/
  | unknown
deriving DecidableEq

namespace Argument

/-- An option by its long name, with the text from the equals sign on. -/
def ofLong (flag : Flag) (rest : Text) : Argument :=
  match rest with
  | [] => if flag = .csv then complete flag [] else pending flag
  | _ :: value => if flag = .csv then unknown else complete flag value

/-- An option by its letter, with the text behind the letter. -/
def ofLetter (flag : Flag) (rest : Text) : Argument :=
  match rest with
  | [] => pending flag
  | '=' :: value => complete flag value
  | value => complete flag value

/-- What an argument is to a command. -/
def classify (verb : Verb) (argument : Text) : Argument :=
  match argument with
  | ['-', '-'] => ending
  | '-' :: '-' :: long =>
    match verb.flags.find? fun flag => flag.name = long.takeWhile (· ≠ '=') with
    | some flag => ofLong flag (long.dropWhile (· ≠ '='))
    | none => unknown
  | '-' :: letter :: rest =>
    match verb.flags.find? fun flag => flag.letter? = some letter with
    | some flag => ofLetter flag rest
    | none => unknown
  -- an argument without a name, or a single dash
  | _ => unknown

/-- Whether a text is a number without sign: digits with at most one point, which is not the first
    character, and at most one `e`, which is neither the first character nor the last. -/
def looksLikeNumber (t : Text) : Bool :=
  let isMark (c : Char) : Bool := c = 'e' || c = 'E'
  let mantissa := t.takeWhile fun c => !isMark c
  let isMantissa := mantissa.head? ≠ some '.' && mantissa.count '.' ≤ 1
    && mantissa.all fun c => c.isDigit || c = '.'
  match t.dropWhile fun c => !isMark c with
  | [] => isMantissa
  | _ :: exponent =>
    mantissa ≠ [] && isMantissa && exponent ≠ [] && exponent.all Char.isDigit

/-- Whether an argument can be the separate value of an option: it does not look like an option,
    or the option takes negative numbers and it looks like one. -/
def isValue (verb : Verb) (flag : Flag) (argument : Text) : Bool :=
  match argument with
  | '-' :: c :: rest => c ≠ '-' && flag.takesNegative verb && looksLikeNumber (c :: rest)
  | _ => true

end Argument

/-- The options that are set, in order, with their values. -/
abbrev Settings := List (Flag × Text)

/-- The options that some arguments set. -/
def Settings.ofArguments? (verb : Verb) : List Text → Option Settings
  | [] => some []
  | argument :: rest =>
    match Argument.classify verb argument with
    | .complete flag value => (ofArguments? verb rest).map ((flag, value) :: ·)
    | .pending flag =>
      match rest with
      | [] => none
      | value :: rest =>
        if Argument.isValue verb flag value then
          (ofArguments? verb rest).map ((flag, value) :: ·)
        else none
    -- what stood behind the dashes would have no name, and no command takes that
    | .ending => if rest = [] then some [] else none
    | .unknown => none

end D0L
