import D0L.Proofs.Dialogue.Lines
import D0L.Proofs.LengthLimit

namespace D0L

/-!
# Dialogues turn by turn

A dialogue asks, reads a line, and goes on or ends.  This file takes a dialogue apart into its
turns, one for each question, and proves that all it does is in them; so it reads no further than
its last answer, and a cut before that is always noticed.

* `Dialogue.turns` — the questions of a dialogue with the lines that were read.
* `Dialogue.run_cons_of_after`, `Dialogue.run_cons_of_last` — what one line does, where the
  dialogue goes on and where it ends.
* `Dialogue.output_run` — the output is what is said in the turns, and the result.
* `Dialogue.length_turns`, `Dialogue.linesRead_isPrefix` — questions and lines are equally many, up
  to a question that finds no line.
* `Dialogue.run_linesRead`, `Dialogue.run_take` — other input behind the last answer, and input
  that is cut before it.
* `Dialogue.reads_up_to_last_answer` — the same for input in bytes.
-/

/-! ### Turns -/

/-- What a line of bytes does at some point of a dialogue, if it is text. -/
def Phase.reply? (phase : Phase) (line : List UInt8) : Option Reply :=
  (Dialogue.lineText? line).map fun text => (phase.hear text).value

/-- Where a dialogue goes on after a line, if it does. -/
def Phase.after? (phase : Phase) (line : List UInt8) : Option Phase :=
  match phase.reply? line with
  | some (.rejected _) => some phase
  | some (.next next) => some next
  | _ => none

/-- A question of a dialogue with the line that was read, or none at the end of the input. -/
structure Turn where
  /-- Where the question was asked. -/
  phase : Phase
  /-- The line. -/
  line : Option (List UInt8)
deriving DecidableEq

namespace Turn

/-- What is written in a turn: the question, and what is wrong with a line that is rejected. -/
def said (turn : Turn) : Text :=
  turn.phase.prompt ++
    match turn.line.bind turn.phase.reply? with
    | some (.rejected reason) => Dialogue.rejection reason
    | _ => []

/-- What is reported in a turn. -/
def reported (turn : Turn) : List Event :=
  match turn.line.bind Dialogue.lineText? with
  | none => []
  | some text =>
    (turn.phase.hear text).events ++
      match (turn.phase.hear text).value with
      | .rejected reason => [.rejected reason]
      | _ => []

end Turn

namespace Dialogue

/-- The turns of a dialogue from some point on. -/
def turns (phase : Phase) : List (List UInt8) → List Turn
  | [] => [{ phase, line := none }]
  | line :: rest =>
    { phase, line := some line } :: match phase.after? line with
      | none => []
      | some next => turns next rest

/-- The lines that a dialogue reads. -/
def linesRead (phase : Phase) (lines : List (List UInt8)) : List (List UInt8) :=
  (turns phase lines).filterMap Turn.line

/-- Whether a dialogue ends because there is nothing left to read. -/
def endsEarly (d : Dialogue) : Bool :=
  match d.outcome with
  | .error (.inputEnded _) => true
  | _ => false

/-- What is written at the end of a dialogue: the result, if there is one. -/
def closing : Except Error Outcome → Text
  | .ok outcome => resultLine outcome.count outcome.result
  | .error _ => []

/-- A dialogue with a turn before it. -/
def after (turn : Turn) (d : Dialogue) : Dialogue where
  output := turn.said ++ d.output
  events := turn.reported ++ d.events
  outcome := d.outcome

variable {phase next : Phase} {line : List UInt8}

@[simp] theorem turns_nil (phase : Phase) : turns phase [] = [⟨phase, none⟩] := rfl

/-- A line that a dialogue goes on behind is one turn, and the others follow. -/
theorem turns_cons_of_after (h : phase.after? line = some next) (rest : List (List UInt8)) :
    turns phase (line :: rest) = ⟨phase, some line⟩ :: turns next rest := by
  rw [turns, h]

/-- A line that ends a dialogue is its last turn, whatever has been typed behind it. -/
theorem turns_cons_of_last (h : phase.after? line = none) (rest : List (List UInt8)) :
    turns phase (line :: rest) = [⟨phase, some line⟩] := by
  rw [turns, h]

/-- A dialogue that goes on reads the lines behind. -/
theorem linesRead_cons_of_after (h : phase.after? line = some next) (rest : List (List UInt8)) :
    linesRead phase (line :: rest) = line :: linesRead next rest := by
  rw [linesRead, turns_cons_of_after h]
  rfl

/-- A dialogue that has ended does not. -/
theorem linesRead_cons_of_last (h : phase.after? line = none) (rest : List (List UInt8)) :
    linesRead phase (line :: rest) = [line] := by
  rw [linesRead, turns_cons_of_last h]
  rfl

/-- What is said in a turn is printed in front of all that follows. -/
@[simp] theorem output_after (turn : Turn) (d : Dialogue) :
    (d.after turn).output = turn.said ++ d.output := rfl

@[simp] theorem outcome_after (turn : Turn) (d : Dialogue) :
    (d.after turn).outcome = d.outcome := rfl

@[simp] theorem endsEarly_after (turn : Turn) (d : Dialogue) :
    (d.after turn).endsEarly = d.endsEarly := rfl

end Dialogue

/-! ### The end of a dialogue -/

namespace Grammar

/-- Under a limit, a number of generations gives what the expansion under the limit gives. -/
theorem outcome_expandCount_limited (g : Grammar) (most n : Nat) :
    (g.expandCount (some most) (.ofNat n)).outcome =
      (g.scheme.expandWithin most g.start n).outcome.map fun w => (n, w) := by
  have hunder : (g.expandUnder (some most) n).outcome =
      (g.scheme.expandWithin most g.start n).outcome := rfl
  rw [expandCount, Attempt.outcome_bind, hunder]
  cases (g.scheme.expandWithin most g.start n).outcome <;> rfl

/-- What a dialogue ends with: the generation that was asked for, a number of generations that is
    negative, or a generation that is too long for the limit. -/
theorem outcome_expandCount (g : Grammar) (limit : Option Nat) (count : Int) :
    (∃ n : Nat, count = n ∧
      (g.expandCount limit count).outcome = .ok (n, (g.expand n).value)) ∨
    (count < 0 ∧ (g.expandCount limit count).outcome = .error (.negativeCount count)) ∨
    (0 ≤ count ∧ ∃ generation length most, limit = some most ∧
      (g.expandCount limit count).outcome = .error (.overLimit generation length most)) := by
  cases count with
  | negSucc k => exact .inr (.inl ⟨Int.negSucc_lt_zero k, rfl⟩)
  | ofNat n =>
    cases limit with
    | none => exact .inl ⟨n, rfl, rfl⟩
    | some most =>
      rw [outcome_expandCount_limited]
      obtain h | ⟨generation, length, h⟩ := g.scheme.expandWithin_outcome most g.start n
      · rw [h]
        exact .inl ⟨n, rfl, rfl⟩
      · rw [h]
        exact .inr (.inr ⟨Int.natCast_nonneg n, generation, length, most, rfl, rfl⟩)

end Grammar

namespace Dialogue

/-- The end of a dialogue whose expansion succeeds. -/
theorem conclude_of_ok {limit : Option Nat} {grammar : Grammar} {count : Int} {n : Nat} {w : Word}
    (h : (grammar.expandCount limit count).outcome = .ok (n, w)) :
    (conclude limit grammar count).output = resultLine n w ∧
      (conclude limit grammar count).outcome = .ok { grammar, count := n, result := w } := by
  simp only [conclude, h, and_self]

/-- The end of a dialogue whose expansion fails. -/
theorem conclude_of_error {limit : Option Nat} {grammar : Grammar} {count : Int} {e : Error}
    (h : (grammar.expandCount limit count).outcome = .error e) :
    (conclude limit grammar count).output = [] ∧
      (conclude limit grammar count).outcome = .error e := by
  simp only [conclude, h, and_self]

/-- A dialogue that has come to its end does not miss a line, and prints the result if it has
    one. -/
theorem conclude_ends (limit : Option Nat) (grammar : Grammar) (count : Int) :
    (conclude limit grammar count).endsEarly = false ∧
      (conclude limit grammar count).output =
        closing (conclude limit grammar count).outcome := by
  unfold endsEarly
  obtain ⟨n, -, h⟩ | ⟨-, h⟩ | ⟨-, _, _, _, -, h⟩ := grammar.outcome_expandCount limit count
  · obtain ⟨houtput, houtcome⟩ := conclude_of_ok h
    rw [houtput, houtcome]
    exact ⟨rfl, rfl⟩
  · obtain ⟨houtput, houtcome⟩ := conclude_of_error h
    rw [houtput, houtcome]
    exact ⟨rfl, rfl⟩
  · obtain ⟨houtput, houtcome⟩ := conclude_of_error h
    rw [houtput, houtcome]
    exact ⟨rfl, rfl⟩

variable {limit : Option Nat} {phase next : Phase} {line : List UInt8}

/-! ### One line -/

/-- **A line after which the dialogue goes on.**  What it does is what is done in its turn and then
    in the others. -/
theorem run_cons_of_after (h : phase.after? line = some next) (rest : List (List UInt8)) :
    run limit phase (line :: rest) = (run limit next rest).after ⟨phase, some line⟩ := by
  unfold Phase.after? Phase.reply? at h
  unfold after Turn.said Turn.reported Phase.reply?
  rw [run]
  cases htext : lineText? line with
  | none => simp [htext] at h
  | some text =>
    rw [htext, Option.map_some] at h
    simp only [Option.bind_some, htext, Option.map_some]
    cases hreply : (phase.hear text).value with
    | rejected reason =>
      -- the same question is asked again
      obtain rfl : phase = next := by simpa [hreply] using h
      simp
    | next phase' =>
      obtain rfl : phase' = next := by simpa [hreply] using h
      simp
    | finished grammar count => simp [hreply] at h

/-- **A line after which the dialogue ends.**  What comes behind it does not matter, and the output
    is what is said in its turn, with the result if there is one. -/
theorem run_cons_of_last (limit : Option Nat) (h : phase.after? line = none)
    (rest : List (List UInt8)) :
    run limit phase (line :: rest) = run limit phase [line] ∧
      (run limit phase [line]).endsEarly = false ∧
      (run limit phase [line]).output =
        Turn.said ⟨phase, some line⟩ ++ closing (run limit phase [line]).outcome := by
  unfold Phase.after? Phase.reply? at h
  unfold Turn.said Phase.reply?
  rw [run, run]
  cases htext : lineText? line with
  | none => simp [endsEarly, closing, htext]
  | some text =>
    rw [htext, Option.map_some] at h
    simp only [Option.bind_some, htext, Option.map_some]
    cases hreply : (phase.hear text).value with
    | rejected reason => simp [hreply] at h
    | next phase' => simp [hreply] at h
    | finished grammar count =>
      -- the last answer has been given, and what is left is the conclusion
      obtain ⟨hends, houtput⟩ := conclude_ends limit grammar count
      exact ⟨rfl, hends, by simp [houtput]⟩

/-! ### Whole dialogues -/

/-- **The output is what is said in the turns.**  Behind them comes the result, if there is one. -/
theorem output_run (limit : Option Nat) (phase : Phase) (lines : List (List UInt8)) :
    (run limit phase lines).output =
      (turns phase lines).flatMap Turn.said ++ closing (run limit phase lines).outcome := by
  induction lines generalizing phase with
  | nil => simp [run, Turn.said, closing]
  | cons line rest ih =>
    cases h : phase.after? line with
    | none =>
      obtain ⟨hrun, -, houtput⟩ := run_cons_of_last limit h rest
      rw [hrun, houtput, turns_cons_of_last h, List.flatMap_singleton]
    | some next =>
      rw [run_cons_of_after h, output_after, outcome_after, ih, turns_cons_of_after h,
        List.flatMap_cons, List.append_assoc]

/-- The lines that a dialogue reads are the first ones, in order. -/
theorem linesRead_isPrefix (phase : Phase) (lines : List (List UInt8)) :
    linesRead phase lines <+: lines := by
  induction lines generalizing phase with
  | nil => exact List.nil_prefix
  | cons line rest ih =>
    cases h : phase.after? line with
    | none =>
      rw [linesRead_cons_of_last h]
      exact ⟨rest, rfl⟩
    | some next =>
      rw [linesRead_cons_of_after h, List.cons_prefix_cons]
      exact ⟨rfl, ih next⟩

/-- **There is one question for each line that is read,** and one more if the input ends early. -/
theorem length_turns (limit : Option Nat) (phase : Phase) (lines : List (List UInt8)) :
    (turns phase lines).length =
      (linesRead phase lines).length + if (run limit phase lines).endsEarly then 1 else 0 := by
  induction lines generalizing phase with
  | nil => rfl
  | cons line rest ih =>
    cases h : phase.after? line with
    | none =>
      obtain ⟨hrun, hends, -⟩ := run_cons_of_last limit h rest
      rw [hrun, hends, turns_cons_of_last h, linesRead_cons_of_last h]
      rfl
    | some next =>
      rw [run_cons_of_after h, endsEarly_after, turns_cons_of_after h, linesRead_cons_of_after h,
        List.length_cons, List.length_cons, ih]
      omega

/-- **Nothing behind the last answer matters.**  A dialogue that does not end early is the same
    whatever comes after the lines that it reads. -/
theorem run_linesRead {lines : List (List UInt8)} (h : (run limit phase lines).endsEarly = false)
    (more : List (List UInt8)) :
    run limit phase (linesRead phase lines ++ more) = run limit phase lines := by
  induction lines generalizing phase with
  | nil => exact absurd (show true = false from h) (by decide)
  | cons line rest ih =>
    cases hafter : phase.after? line with
    | none =>
      rw [linesRead_cons_of_last hafter, List.singleton_append,
        (run_cons_of_last limit hafter more).1, (run_cons_of_last limit hafter rest).1]
    | some next =>
      rw [run_cons_of_after hafter, endsEarly_after] at h
      rw [linesRead_cons_of_after hafter, List.cons_append, run_cons_of_after hafter,
        run_cons_of_after hafter, ih h]

/-- A dialogue begins with its first question. -/
theorem prompt_isPrefix (limit : Option Nat) (phase : Phase) (lines : List (List UInt8)) :
    phase.prompt <+: (run limit phase lines).output := by
  have hfirst : ∃ line others, turns phase lines = ⟨phase, line⟩ :: others := by
    cases lines with
    | nil => exact ⟨none, [], rfl⟩
    | cons line rest => exact ⟨some line, _, rfl⟩
  obtain ⟨line, others, hturns⟩ := hfirst
  rw [output_run, hturns, List.flatMap_cons, Turn.said, List.append_assoc, List.append_assoc]
  exact List.prefix_append ..

/-- **A cut is noticed where it is.**  If the input ends before a line that would have been read,
    the turns before are the same, and the dialogue ends early with the question for which the line
    was read. -/
theorem run_take (limit : Option Nat) {lines : List (List UInt8)} {j : Nat}
    (hj : j < (linesRead phase lines).length) :
    ∃ turn, (turns phase lines)[j]? = some turn ∧ turn.line = lines[j]? ∧
      (run limit phase (lines.take j)).outcome = .error (.inputEnded turn.phase.field) ∧
      (run limit phase (lines.take j)).output =
        ((turns phase lines).take j).flatMap Turn.said ++ turn.phase.prompt ∧
      (run limit phase (lines.take j)).output <+: (run limit phase lines).output := by
  -- the turns before the cut are taken one by one, until the cut is at the front
  induction lines generalizing phase j with
  | nil => exact absurd hj (Nat.not_lt_zero j)
  | cons line rest ih =>
    cases j with
    | zero => exact ⟨⟨phase, some line⟩, rfl, rfl, rfl, rfl, prompt_isPrefix ..⟩
    | succ j =>
      cases h : phase.after? line with
      | none =>
        -- the dialogue ends with the first line, so there is no other one to be read
        rw [linesRead_cons_of_last h] at hj
        exact absurd (Nat.lt_of_succ_lt_succ hj) (Nat.not_lt_zero j)
      | some next =>
        rw [linesRead_cons_of_after h] at hj
        obtain ⟨turn, hturn, hline, houtcome, houtput, hprefix⟩ := ih (Nat.lt_of_succ_lt_succ hj)
        refine ⟨turn, ?_, hline, ?_, ?_, ?_⟩
        · rw [turns_cons_of_after h, List.getElem?_cons_succ, hturn]
        · rw [List.take_succ_cons, run_cons_of_after h, outcome_after, houtcome]
        · rw [List.take_succ_cons, run_cons_of_after h, output_after, houtput,
            turns_cons_of_after h, List.take_succ_cons, List.flatMap_cons, List.append_assoc]
        · rw [List.take_succ_cons, run_cons_of_after h, run_cons_of_after h, output_after,
            output_after]
          exact (List.prefix_append_right_inj _).2 hprefix

/-! ### Input in bytes -/

/-- The questions of the dialogue on some input. -/
def questions (input : List UInt8) : List Turn := turns .angle (lines input)

/-- The number of lines that the dialogue on some input reads. -/
def readCount (input : List UInt8) : Nat := (linesRead .angle (lines input)).length

/-- The lines that are read are the first lines of the input. -/
theorem linesRead_eq_take (input : List UInt8) :
    linesRead .angle (lines input) = (lines input).take (readCount input) :=
  List.prefix_iff_eq_take.1 (linesRead_isPrefix .angle (lines input))

/-- **A dialogue reads up to its last answer, and no further.**  It asks one question for each line
    that it reads, and one more if the input ends early; its output is what is said in these turns,
    and the result if there is one.  If it does not end early, nothing behind the last line that it
    reads matters.  If the input is cut before one of the lines that it reads, it ends early with
    the question for which that line was read, and what it has written so far is the same. -/
theorem reads_up_to_last_answer (limit : Option Nat) (input : List UInt8) :
    (readCount input ≤ (lines input).length ∧
      (questions input).filterMap Turn.line = (lines input).take (readCount input) ∧
      (questions input).length =
        readCount input + (if (ofInput limit input).endsEarly then 1 else 0) ∧
      (ofInput limit input).output =
        (questions input).flatMap Turn.said ++ closing (ofInput limit input).outcome) ∧
    ((ofInput limit input).endsEarly = false →
      (keepLines (readCount input) input).getLast? = some lineFeed →
      ∀ more, ofInput limit (keepLines (readCount input) input ++ more) = ofInput limit input) ∧
    ∀ j < readCount input, ∃ turn, (questions input)[j]? = some turn ∧
      turn.line = (lines input)[j]? ∧
      keepLines j input <+: input ∧ lines (keepLines j input) = (lines input).take j ∧
      (ofInput limit (keepLines j input)).outcome = .error (.inputEnded turn.phase.field) ∧
      (ofInput limit (keepLines j input)).output =
        ((questions input).take j).flatMap Turn.said ++ turn.phase.prompt ∧
      (ofInput limit (keepLines j input)).output <+: (ofInput limit input).output := by
  refine ⟨⟨(linesRead_isPrefix .angle (lines input)).length_le, linesRead_eq_take input,
    length_turns limit .angle (lines input), output_run limit .angle (lines input)⟩, ?_, ?_⟩
  · intro hends hlast more
    -- what follows the last line that is read is never looked at
    have hread := run_linesRead hends (lines more)
    rw [linesRead_eq_take] at hread
    rw [ofInput, lines_append hlast, lines_keepLines, hread]
    rfl
  · intro j hj
    -- cut in front of a line, the dialogue ends at the question that the line would have answered
    obtain ⟨turn, hturn, hline, hcut⟩ := run_take limit hj
    rw [← lines_keepLines] at hcut
    exact ⟨turn, hturn, hline, keepLines_isPrefix j input, lines_keepLines j input, hcut⟩

/-- Input with an empty rule, and with a line behind its last answer. -/
def emptyRuleInput : List UInt8 := Text.toBytes "0\nA\n1\n\nAB\n2\nmore".toList

/-- The line behind the last answer is not read, and the rule is missed when the input ends before
    it. -/
theorem reads_emptyRuleInput :
    readCount emptyRuleInput = 6 ∧ (ofInput none emptyRuleInput).endsEarly = false ∧
    (keepLines 6 emptyRuleInput).getLast? = some lineFeed ∧
    (∀ more, ofInput none (keepLines 6 emptyRuleInput ++ more) = ofInput none emptyRuleInput) ∧
    (ofInput none (keepLines 4 emptyRuleInput)).outcome = .error (.inputEnded .rule) := by
  have hcount : readCount emptyRuleInput = 6 := by decide +kernel
  have hends : (ofInput none emptyRuleInput).endsEarly = false := by decide +kernel
  have hlast : (keepLines 6 emptyRuleInput).getLast? = some lineFeed := by decide +kernel
  have hfield : (questions emptyRuleInput)[4]?.map (fun turn => turn.phase.field) = some .rule := by
    decide +kernel
  obtain ⟨-, hmore, hcut⟩ := reads_up_to_last_answer none emptyRuleInput
  rw [hcount] at hmore hcut
  obtain ⟨turn, hturn, -, -, -, houtcome, -⟩ := hcut 4 (by decide)
  rw [hturn, Option.map_some, Option.some.injEq] at hfield
  rw [hfield] at houtcome
  exact ⟨hcount, hends, hlast, hmore hends hlast, houtcome⟩

end Dialogue

end D0L
