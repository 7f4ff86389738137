import D0L.Proofs.Command.Effects
import D0L.Proofs.Command.Options
import D0L.Proofs.Definitions
import D0L.Proofs.Dialogue.Typed

namespace D0L

/-!
# Two front ends

A grammar can be described by the arguments of one command, or by the answers in a dialogue.  Both
describe the same grammar and expand it in the same way, so the output of the dialogue is its
questions with what the command prints behind them, and if one of them fails the other fails for the
same reason.

* `Grammar.error_of_expandCount` — why an expansion can fail.
* `Command.describing`, `Command.ofArguments?_describing` — a grammar as arguments.
* `Dialogue.describing`, `Dialogue.says_of_describing` — the same grammar as lines.
* `agrees_with_dialogue` — what comes of them.
* `Text.lastLine`, `last_line_holds_questions` — questions do not end their lines, so the last line
  of a dialogue is more than what the command prints.
-/

/-! ### Expanding -/

/-- **Why an expansion fails:** the number of generations is negative, or one of them is too
    long. -/
theorem Grammar.error_of_expandCount {g : Grammar} {limit : Option Nat} {count : Int} {e : Error}
    (h : (g.expandCount limit count).outcome = .error e) :
    count < 0 ∧ e = .negativeCount count ∨
      0 ≤ count ∧ ∃ generation length most, limit = some most ∧
        e = .overLimit generation length most := by
  obtain ⟨n, -, hok⟩ | ⟨hneg, herror⟩ | ⟨hnonneg, generation, length, most, hlimit, herror⟩ :=
    g.outcome_expandCount limit count
  · cases h.symm.trans hok
  · exact .inl ⟨hneg, Except.error.inj (h.symm.trans herror)⟩
  · exact .inr ⟨hnonneg, generation, length, most, hlimit,
      Except.error.inj (h.symm.trans herror)⟩

/-- What an expansion succeeds with. -/
theorem Grammar.result_of_expandCount {g : Grammar} {limit : Option Nat} {count : Int} {n : Nat}
    {w : Word} (h : (g.expandCount limit count).outcome = .ok (n, w)) :
    w = g.scheme.derive n g.start := by
  obtain ⟨m, -, hok⟩ | ⟨-, herror⟩ | ⟨-, _, _, _, -, herror⟩ := g.outcome_expandCount limit count
  · obtain ⟨rfl, rfl⟩ := Prod.mk.inj (Except.ok.inj (h.symm.trans hok))
    exact Scheme.expand_value ..
  · cases h.symm.trans herror
  · cases h.symm.trans herror

/-! ### A grammar as arguments -/

namespace Command

/-- The options that describe a grammar and ask for a generation of it. -/
def described (angle start : Text) (rules : List Text) (count : Int) (limit : Option Nat) :
    Settings :=
  [(.start, start)] ++ rules.map (Flag.rule, ·) ++
    [(.angle, angle), (.iterations, Numeral.writeInt count)] ++
    (limit.map fun most => (Flag.maxLength, Numeral.write most)).toList

/-- Arguments that set these options: `--axiom=` with the start word behind it, and so on. -/
def describing (angle start : Text) (rules : List Text) (count : Int) (limit : Option Nat) :
    List Text :=
  Verb.expand.name ::
    (described angle start rules count limit).map fun setting => setting.1.setTo setting.2

example : describing "90".toList "A".toList ["AAB".toList, "BA".toList] (-1) (some 5) =
    ["expand".toList, "--axiom=A".toList, "--rule=AAB".toList, "--rule=BA".toList,
      "--angle=90".toList, "--iterations=-1".toList, "--max-length=5".toList] := by decide

variable {angle start : Text} {rules : List Text} {count : Int} {limit : Option Nat} {x : Binary64}

/-- Each option that is set has its own value, and no other option is set. -/
theorem values_described (flag : Flag) :
    (described angle start rules count limit).values flag =
      match flag with
      | .start => [start]
      | .rule => rules
      | .angle => [angle]
      | .iterations => [Numeral.writeInt count]
      | .maxLength => (limit.map Numeral.write).toList
      | _ => [] := by
  simp only [described, Settings.values_append, Settings.values_map]
  cases limit <;> cases flag <;> simp [Settings.values]

/-- The arguments set these options, one each. -/
theorem sets_describing :
    Verb.Sets .expand
      ((described angle start rules count limit).map fun setting => setting.1.setTo setting.2)
      (described angle start rules count limit) := by
  apply Verb.sets_attached
  intro setting hsetting
  simp only [described, List.mem_append, List.mem_cons, List.not_mem_nil, or_false, List.mem_map,
    Option.mem_toList, Option.map_eq_some_iff] at hsetting
  obtain ((rfl | ⟨rule, -, rfl⟩) | rfl | rfl) | ⟨most, -, rfl⟩ := hsetting <;>
    exact ⟨by simp [Verb.flags, Verb.sourceFlags], nofun⟩

/-- **What the arguments ask for.** -/
theorem ofArguments?_describing (hangle : Binary64.ofText? angle = some x)
    (hlow : -(power 2 63 : Int) ≤ count) (hhigh : count < power 2 63)
    (hlimit : ∀ most, limit = some most → most ≤ Numeral.maxWord) :
    ofArguments? (describing angle start rules count limit)
      = some (task (.expand ⟨none, none, some start, rules, some x⟩ count limit)) := by
  rw [describing, ofArguments?_name, sets_describing.ofArguments?_eq, Option.bind_some]
  have hcount := Numeral.signed?_writeInt hlow hhigh
  cases limit with
  | none =>
    simp [ofSettings?, Source.ofSettings?, Settings.parsed?, Settings.atMostOne, values_described,
      hangle, hcount]
  | some most =>
    have hmost := Numeral.word?_write (hlimit most rfl)
    simp [ofSettings?, Source.ofSettings?, Settings.parsed?, Settings.atMostOne, values_described,
      hangle, hcount, hmost]

/-- **The grammar that the arguments describe.** -/
theorem resolve_describing (opener : Text → Except FileFault Opened) (start : Text)
    (ps : List Production) (x : Binary64) :
    Source.resolve opener ⟨none, none, some start, ps.map Production.line, some x⟩
      = .ok { angle := x, start, scheme := (Scheme.collect ps).value } := by
  rw [Source.resolve]
  simp only [Source.base, Production.ofLines_map_line]
  rfl

section Run

variable {color : Bool} {folder : Folder} {input : List UInt8} {ps : List Production}

/-- The arguments are for the task that they describe. -/
theorem runArguments_describing (hangle : Binary64.ofText? angle = some x)
    (hlow : -(power 2 63 : Int) ≤ count) (hhigh : count < power 2 63)
    (hlimit : ∀ most, limit = some most → most ≤ Numeral.maxWord) :
    runArguments color folder input (describing angle start rules count limit)
      = (task (.expand ⟨none, none, some start, rules, some x⟩ count limit)).run color folder
          input := by
  rw [runArguments, ofArguments?_describing hangle hlow hhigh hlimit]

/-- The command succeeds if the expansion does. -/
theorem run_describing_of_ok {n : Nat} {w : Word} (h : (Grammar.expandCount
      { angle := x, start, scheme := (Scheme.collect ps).value } limit count).outcome
        = .ok (n, w)) :
    (task (.expand ⟨none, none, some start, ps.map Production.line, some x⟩ count limit)).run color
        folder input
      = { status := .success, output := resultLine n w, folder } := by
  have hwork : (Task.expand _ count limit).work color (folder.open input) = _ :=
    Task.work_expand (resolve_describing (folder.open input) start ps x) count limit
  rw [h] at hwork
  rw [run_task_of_ok hwork, carryOut_of_nothing rfl]

/-- The command fails if the expansion does, for the same reason. -/
theorem run_describing_of_error {e : Error} (h : (Grammar.expandCount
      { angle := x, start, scheme := (Scheme.collect ps).value } limit count).outcome
        = .error e) :
    (task (.expand ⟨none, none, some start, ps.map Production.line, some x⟩ count limit)).run color
        folder input
      = { status := .failure (.failed e), output := [], folder } := by
  have hwork : (Task.expand _ count limit).work color (folder.open input) = _ :=
    Task.work_expand (resolve_describing (folder.open input) start ps x) count limit
  rw [h] at hwork
  rw [run_task_of_error hwork]

end Run

end Command

/-! ### The same grammar as lines -/

namespace Dialogue

/-- The lines that describe a grammar and ask for a generation of it. -/
def describing (angle start : Text) (rules : List Text) (count : Int) : List Text :=
  angle :: start :: Numeral.write rules.length :: (rules ++ [Numeral.writeInt count])

variable {angle start : Text} {ps : List Production} {count : Int} {x : Binary64}

/-- **What the lines ask for.** -/
theorem says_of_describing (hangle : Binary64.ofText? angle = some x) (hstart : IsLine start)
    (hrules : ∀ p ∈ ps, IsLine p.line) (hlength : ps.length ≤ Numeral.maxWord)
    (hlow : -(power 2 63 : Int) ≤ count) (hhigh : count < power 2 63) (limit : Option Nat) :
    Says (ofInput limit (typed (describing angle start (ps.map Production.line) count)))
      (asked ps.length)
      (conclude limit { angle := x, start, scheme := (Scheme.collect ps).value } count) := by
  -- numbers are visible, so they are lines, and trimming leaves them as they are
  have hvisible := Binary64.isVisible_of_ofText? hangle
  have hlines : ∀ text ∈ describing angle start (ps.map Production.line) count, IsLine text := by
    intro text htext
    simp only [describing, List.mem_cons, List.mem_append, List.mem_map, List.not_mem_nil,
      or_false] at htext
    obtain rfl | rfl | rfl | ⟨p, hp, rfl⟩ | rfl := htext
    · exact isLine_of_isVisible hvisible
    · exact hstart
    · exact isLine_of_isVisible (Numeral.isVisible_write _)
    · exact hrules p hp
    · exact isLine_of_isVisible (Numeral.isVisible_writeInt _)
  refine says_of_plain (spells_typed hlines) ?_ ?_ ?_ limit
  · rw [angleOf?, hvisible.trim_eq, hangle]
  · rw [ruleCountOf?, (Numeral.isVisible_write _).trim_eq, List.length_map,
      Numeral.word?_write hlength]
  · rw [expansionsOf?, (Numeral.isVisible_writeInt _).trim_eq,
      Numeral.signed?_writeInt hlow hhigh]

end Dialogue

/-! ### Both -/

/-- The line that shows a generation is one line. -/
theorem exists_line_of_result {ps : List Production} {start : Word} (hstart : '\n' ∉ start)
    (hrules : ∀ p ∈ ps, '\n' ∉ p.line) (n : Nat) :
    ∃ line, '\n' ∉ line ∧
      resultLine n ((Scheme.collect ps).value.derive n start) = line ++ ['\n'] := by
  -- a line feed could only come from the start word or from a rule
  have hresult := Scheme.not_mem_derive_collect hstart
    (fun p hp hmem => hrules p hp (List.mem_cons_of_mem _ hmem)) n
  exact Dialogue.exists_line_of_resultLine hresult n

open Command Dialogue

/-- **The front ends agree.**  A grammar is described by the arguments of one command and by the
    answers in a dialogue, which are numbers and lines of text.  The command succeeds if and only if
    the dialogue does.  The output of the dialogue is its questions, one for each line that is read
    and none on a line of its own, with what the command prints behind them: one line on success and
    nothing on failure.  Both fail with the same error: there is none but a negative number of
    generations and a generation that is too long. -/
theorem agrees_with_dialogue (color : Bool) (folder : Folder) (input : List UInt8)
    {angle start : Text} {rules : List Text} {count : Int} {limit : Option Nat}
    (hangle : (Binary64.ofText? angle).isSome = true) (hstart : IsLine start)
    (hrules : ∀ rule ∈ rules, rule ≠ [] ∧ IsLine rule)
    (hlength : rules.length ≤ Numeral.maxWord)
    (hcount : -(power 2 63 : Int) ≤ count ∧ count < power 2 63)
    (hlimit : ∀ most, limit = some most → most ≤ Numeral.maxWord) :
    let command := runArguments color folder input
      (Command.describing angle start rules count limit)
    let dialogue := ofInput limit (typed (Dialogue.describing angle start rules count))
    (command.status = .success ↔ ∃ outcome, dialogue.outcome = .ok outcome) ∧
    dialogue.output = asked rules.length ++ command.output ∧
    (command.status = .success → ∃ line, '\n' ∉ line ∧ command.output = line ++ ['\n']) ∧
    (command.status ≠ .success → command.output = [] ∧
      ∃ e, command.status = .failure (.failed e) ∧ dialogue.outcome = .error e ∧
        (count < 0 ∧ e = .negativeCount count ∨
          0 ≤ count ∧ ∃ generation length most, limit = some most ∧
            e = .overLimit generation length most)) := by
  intro command dialogue
  obtain ⟨x, hx⟩ := Option.isSome_iff_exists.1 hangle
  obtain ⟨ps, rfl⟩ := Production.exists_lines fun rule hrule => (hrules rule hrule).1
  have hlines (p : Production) (hp : p ∈ ps) : IsLine p.line :=
    (hrules _ (List.mem_map_of_mem hp)).2
  rw [List.length_map] at hlength ⊢
  have hdialogue : Says dialogue _ _ :=
    says_of_describing hx hstart hlines hlength hcount.1 hcount.2 limit
  have hcommand : command = _ := runArguments_describing hx hcount.1 hcount.2 hlimit
  rw [hcommand, hdialogue.1, hdialogue.2]
  -- from here on both do the same expansion
  cases hexpand : (Grammar.expandCount
      { angle := x, start, scheme := (Scheme.collect ps).value } limit count).outcome with
  | ok result =>
    obtain ⟨n, w⟩ := result
    obtain ⟨houtput, houtcome⟩ := conclude_of_ok hexpand
    obtain rfl := Grammar.result_of_expandCount hexpand
    rw [run_describing_of_ok hexpand, houtput, houtcome]
    refine ⟨⟨fun _ => ⟨_, rfl⟩, fun _ => rfl⟩, rfl, fun _ => ?_, fun h => absurd rfl h⟩
    exact exists_line_of_result hstart.noFeed (fun p hp => (hlines p hp).noFeed) n
  | error e =>
    obtain ⟨houtput, houtcome⟩ := conclude_of_error hexpand
    rw [run_describing_of_error hexpand, houtput, houtcome]
    refine ⟨⟨nofun, nofun⟩, rfl, nofun, fun _ => ⟨rfl, e, rfl, rfl, ?_⟩⟩
    exact Grammar.error_of_expandCount hexpand

/-- Rules with a symbol that is defined again. -/
def redefinedRules : List Text := ["AAB".toList, "ABA".toList, "BA".toList]

/-- The later definition counts in both, and a limit stops both at the same generation. -/
theorem agrees_with_dialogue_redefined :
    (Binary64.ofText? "-.5e1".toList).isSome = true ∧ IsLine ['A'] ∧
    (∀ rule ∈ redefinedRules, rule ≠ [] ∧ IsLine rule) ∧
    redefinedRules.length ≤ Numeral.maxWord ∧
    (ofInput (some 9) (typed (Dialogue.describing "-.5e1".toList ['A'] redefinedRules 2))).output
      = asked 3 ++ "Resulting characters after 2 expansions: ABA\n".toList ∧
    (ofInput (some 2) (typed (Dialogue.describing "-.5e1".toList ['A'] redefinedRules 2))).outcome
      = .error (.overLimit 2 3 2) := by
  have hangle : (Binary64.ofText? "-.5e1".toList).isSome = true := by decide +kernel
  have hstart : IsLine ['A'] := by decide
  have hrules : ∀ rule ∈ redefinedRules, rule ≠ [] ∧ IsLine rule := by decide
  have hlength : redefinedRules.length ≤ Numeral.maxWord := by decide
  have hcount : -(power 2 63 : Int) ≤ 2 ∧ (2 : Int) < power 2 63 := by decide
  have hnine : ∀ most, some 9 = some most → most ≤ Numeral.maxWord := by decide
  have htwo : ∀ most, some 2 = some most → most ≤ Numeral.maxWord := by decide
  refine ⟨hangle, hstart, hrules, hlength, ?_, ?_⟩
  · obtain ⟨-, houtput, -, -⟩ := agrees_with_dialogue false .empty [] hangle hstart hrules hlength
      hcount hnine
    exact houtput.trans (by decide +kernel)
  · obtain ⟨-, -, -, hfailure⟩ := agrees_with_dialogue false .empty [] hangle hstart hrules hlength
      hcount htwo
    -- the command tells the error, and the dialogue has the same one
    have hstatus : (runArguments false .empty []
        (Command.describing "-.5e1".toList ['A'] redefinedRules 2 (some 2))).status
          = .failure (.failed (.overLimit 2 3 2)) := by decide +kernel
    obtain ⟨-, e, he, houtcome, -⟩ := hfailure (by rw [hstatus]; nofun)
    rw [hstatus] at he
    cases he
    exact houtcome

/-- The last line of a text, with its line feed if there is one. -/
def Text.lastLine (t : Text) : Text :=
  (t.dropLast.reverse.takeWhile (· ≠ '\n')).reverse ++ t.getLast?.toList

/-- A grammar whose first generation has two letters, as answers in a dialogue. -/
def shortDialogue : Dialogue :=
  ofInput none (typed (Dialogue.describing "90".toList ['A'] ["AAB".toList] 1))

/-- The same grammar as arguments. -/
def shortCommand : Aftermath :=
  runArguments false .empty [] (Command.describing "90".toList ['A'] ["AAB".toList] 1 none)

/-- **The questions are on the last line.**  A question does not end its line, so all that a
    dialogue prints is one line, and what the command prints is only the end of it. -/
theorem last_line_holds_questions :
    (Binary64.ofText? "90".toList).isSome = true ∧ IsLine ['A'] ∧
    (∀ rule ∈ ["AAB".toList], rule ≠ [] ∧ IsLine rule) ∧
    shortCommand.status = .success ∧
    (∃ outcome, shortDialogue.outcome = .ok outcome) ∧
    shortDialogue.output.lastLine = shortDialogue.output ∧
    shortCommand.output ≠ shortDialogue.output.lastLine := by
  have hcommand : shortCommand.output = "Resulting characters after 1 expansions: AB\n".toList := by
    decide +kernel
  have hdialogue : shortDialogue.output
      = "Enter angle: Enter starting pattern: Enter the number of rules: ".toList
        ++ "Enter Rule 1: Enter the number of expansions: ".toList
        ++ "Resulting characters after 1 expansions: AB\n".toList := by
    decide +kernel
  -- there is one line feed, at the end, so the last line is all that has been printed
  have hline : shortDialogue.output.lastLine = shortDialogue.output := by
    rw [hdialogue]
    decide +kernel
  refine ⟨by decide +kernel, by decide, by decide, by decide +kernel, ⟨_, rfl⟩, hline, ?_⟩
  rw [hline, hcommand, hdialogue]
  decide

end D0L
