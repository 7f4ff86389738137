import D0L.Grammar
import D0L.Text.Blank

namespace D0L

/-!
# Dialogues

A dialogue on a console asks for the parts of a grammar and for a number of generations, one line
at a time, and ends with the generation that was asked for. A line that is no answer to the
question is rejected, and the question is asked again.

* `Phase` — what has been answered so far; `Phase.prompt` is the question that comes next.
* `Phase.hear` — what one line does.
* `Dialogue.run` — a whole dialogue.
* `Dialogue.lines` — the lines of some input.
-/

/-- How far a dialogue has come. -/
inductive Phase where
  /-- Nothing has been answered. -/
  | angle
  /-- The angle is known. -/
  | start (angle : Binary64)
  /-- The start word is known, too. -/
  | ruleCount (angle : Binary64) (start : Word)
  /-- Rules are being read: `left` more after this one, which has number `index`. -/
  | rule (angle : Binary64) (start : Word) (index left : Nat) (scheme : Scheme)
  /-- The grammar is known. -/
  | expansions (grammar : Grammar)
deriving DecidableEq

namespace Phase

/-- What is asked for. -/
def field : Phase → Field
  | angle => .angle
  | start .. => .start
  | ruleCount .. => .ruleCount
  | rule .. => .rule
  | expansions .. => .expansions

/-- The question. -/
def prompt : Phase → Text
  | angle => "Enter angle: ".toList
  | start .. => "Enter starting pattern: ".toList
  | ruleCount .. => "Enter the number of rules: ".toList
  | rule _ _ index .. => "Enter Rule ".toList ++ Numeral.write index ++ ": ".toList
  | expansions .. => "Enter the number of expansions: ".toList

/-- What comes next while rules are read: the rule with number `index`, if any are left. -/
def nextRule (x : Binary64) (w : Word) (index : Nat) (scheme : Scheme) : Nat → Phase
  | 0 => expansions { angle := x, start := w, scheme }
  | left + 1 => rule x w index left scheme

end Phase

/-- What a line does in a dialogue. -/
inductive Reply where
  /-- It is no answer, and the question is asked again. -/
  | rejected (reason : Error)
  /-- It is an answer, and the dialogue goes on. -/
  | next (phase : Phase)
  /-- It is the last answer: how many generations of which grammar to expand. -/
  | finished (grammar : Grammar) (count : Int)
deriving DecidableEq

/-- What a line does at some point of a dialogue. Blanks around a number do not matter. -/
def Phase.hear (line : Text) : Phase → Traced Reply
  | .angle =>
    return match Binary64.ofText? (Text.trim line) with
      | some x => .next (.start x)
      | none => .rejected (.notANumber .angle line)
  | .start x => return .next (.ruleCount x line)
  | .ruleCount x w =>
    return match Numeral.word? (Text.trim line) with
      | some count => .next (.nextRule x w 1 .empty count)
      | none => .rejected (.notANumber .ruleCount line)
  | .rule x w index left scheme =>
    match Production.ofLine line with
    -- a definition may be worth an event, as anywhere else
    | .ok p => return .next (.nextRule x w (index + 1) (← scheme.add p) left)
    | .error reason => return .rejected reason
  | .expansions grammar =>
    return match Numeral.signed? (Text.trim line) with
      | some count => .finished grammar count
      | none => .rejected (.notANumber .expansions line)

/-- What a dialogue came to. -/
structure Outcome where
  /-- The grammar that was described. -/
  grammar : Grammar
  /-- The number of generations. -/
  count : Nat
  /-- The generation that was asked for. -/
  result : Word
deriving DecidableEq

/-- The line that shows a generation. -/
def resultLine (count : Nat) (result : Word) : Text :=
  "Resulting characters after ".toList ++ Numeral.write count ++ " expansions: ".toList ++ result
    ++ ['\n']

/-- Expands a grammar for a number of generations that must not be negative. -/
def Grammar.expandCount (g : Grammar) (limit : Option Nat) : Int → Attempt (Nat × Word)
  | .ofNat n => do
    return (n, ← g.expandUnder limit n)
  | .negSucc k => throw (.negativeCount (.negSucc k))

namespace Dialogue

/-- The lines of some input: pieces that end in a line feed, which is not part of the line, and a
    last piece that is not empty. The bytes of the line so far are in `line`, last one first. -/
def linesFrom (line : List UInt8) : List UInt8 → List (List UInt8)
  -- input that ends in a line feed has no empty line behind it
  | [] => if line = [] then [] else [line.reverse]
  | b :: rest =>
    if b = '\n'.toUInt8 then line.reverse :: linesFrom [] rest else linesFrom (b :: line) rest

/-- The lines of some input. -/
def lines (input : List UInt8) : List (List UInt8) := linesFrom [] input

/-- The text of a line, without the carriage returns at its end. -/
def lineText? (line : List UInt8) : Option Text :=
  (Text.ofBytes? line).map (Text.dropEndWhile (· = '\r'))

end Dialogue

/-- All that a dialogue leaves behind. -/
structure Dialogue where
  /-- What was written on the console. -/
  output : Text
  /-- The events, in order. -/
  events : List Event
  /-- What it came to. -/
  outcome : Except Error Outcome

namespace Dialogue

/-- What is written about a rejected line. -/
def rejection (reason : Error) : Text := reason.message ++ ", please try again\n".toList

/-- The end of a dialogue. -/
def conclude (limit : Option Nat) (grammar : Grammar) (count : Int) : Dialogue :=
  let attempt := grammar.expandCount limit count
  match attempt.outcome with
  | .ok (count, result) => {
      output := resultLine count result
      events := attempt.events
      outcome := .ok { grammar, count, result } }
  | .error e => { output := [], events := attempt.events, outcome := .error e }

/-- A dialogue from some point on, with the lines that are still to come. -/
def run (limit : Option Nat) (phase : Phase) : List (List UInt8) → Dialogue
  | [] => {
      output := phase.prompt
      events := []
      outcome := .error (.inputEnded phase.field) }
  | line :: rest =>
    match lineText? line with
    -- bytes that are no text end the dialogue; they are not an answer to be rejected
    | none => { output := phase.prompt, events := [], outcome := .error (.file .notText) }
    | some text =>
      let heard := phase.hear text
      match heard.value with
      | .rejected reason =>
        let after := run limit phase rest
        { after with
          output := phase.prompt ++ rejection reason ++ after.output
          events := heard.events ++ .rejected reason :: after.events }
      | .next phase' =>
        let after := run limit phase' rest
        { after with
          output := phase.prompt ++ after.output
          events := heard.events ++ after.events }
      | .finished grammar count =>
        let after := conclude limit grammar count
        { after with
          output := phase.prompt ++ after.output
          events := heard.events ++ after.events }

/-- The dialogue on some input, with an optional limit on the length of the generations. -/
def ofInput (limit : Option Nat) (input : List UInt8) : Dialogue := run limit .angle (lines input)

end Dialogue

end D0L
