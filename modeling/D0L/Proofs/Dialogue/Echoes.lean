import D0L.Proofs.Definitions
import D0L.Proofs.Dialogue.Script
import D0L.Proofs.QuotedText

namespace D0L

/-!
# Echoes in a dialogue

A dialogue writes back what has been typed: a line that is rejected, between quotes, and in the end
a generation of the grammar.  Neither can end a line of the output.  So each line of the output is
one rejection or the result, and what is quoted in a rejection is the line that was typed.

* `Error.message_notANumber_inj` — a rejection tells what was asked for and what was typed.
* `Phase.reason_of_rejected` — why a line is rejected.
* `Turn.count_said` — one turn: what is written has a line feed only if the line is rejected.
* `Dialogue.Script.not_mem_result` — the result is made of what has been typed.
* `Dialogue.echoes_stay_in_line` — the line feeds in the output of a whole dialogue.
-/

/-! ### Rejections -/

/-- What is asked for is named up to the first comma. -/
theorem Field.takeWhile_label (field : Field) (rest : Text) :
    (field.label ++ ", got ".toList ++ rest).takeWhile (· ≠ ',') = field.label := by
  have hlabel : field.label.all (· ≠ ',') = true := by cases field <;> decide
  rw [List.append_assoc, List.takeWhile_append_of_pos (List.all_eq_true.1 hlabel)]
  exact List.append_nil _

/-- Every field has its own name in messages. -/
theorem Field.label_inj {f g : Field} : f.label = g.label ↔ f = g := by
  cases f <;> cases g <;> decide

/-- **A rejection tells what was typed,** and also what was asked for. -/
theorem Error.message_notANumber_inj {f g : Field} {a b : Text} :
    (Error.notANumber f a).message = (Error.notANumber g b).message ↔ f = g ∧ a = b := by
  constructor
  · intro h
    unfold message at h
    simp only [List.append_assoc, List.append_cancel_left_eq] at h
    obtain rfl : f = g := by
      have hlabels := congrArg (List.takeWhile (· ≠ ',')) h
      rwa [← List.append_assoc, ← List.append_assoc, Field.takeWhile_label,
        Field.takeWhile_label, Field.label_inj] at hlabels
    simp only [List.append_cancel_left_eq] at h
    have hquoted : a.quoted ++ [] = b.quoted ++ [] := congrArg (· ++ []) h
    exact ⟨rfl, (Text.quoted_append_inj hquoted).1⟩
  · rintro ⟨rfl, rfl⟩
    rfl

/-- What has been typed is quoted, so it does not break the message. -/
theorem Error.lineFeed_not_mem_notANumber (field : Field) (input : Text) :
    '\n' ∉ (Error.notANumber field input).message := by
  have hlabel : '\n' ∉ field.label := by cases field <;> decide
  have hinput : '\n' ∉ input.quoted := Text.lineFeed_not_mem_quoted input
  unfold message
  exact List.not_mem_append (List.not_mem_append (List.not_mem_append (by decide) hlabel)
    (by decide)) hinput

theorem Error.lineFeed_not_mem_emptyRule : '\n' ∉ Error.emptyRule.message := by decide

namespace Phase

/-- **Why a line is rejected:** it is an empty rule, or not the number asked for, and quoted as it
    was typed. -/
theorem reason_of_rejected {phase : Phase} {line : Text} {reason : Error}
    (h : (phase.hear line).value = .rejected reason) :
    reason = .emptyRule ∨ ∃ field, reason = .notANumber field line := by
  -- each question has one reason to reject a line, and only the start word has none
  cases phase with
  | angle =>
    cases hread : angleOf? line with
    | none => exact .inr ⟨_, (Reply.rejected.inj ((asks_angle.rejects hread).symm.trans h)).symm⟩
    | some x => cases (asks_angle.accepts hread).symm.trans h
  | start x => cases h
  | ruleCount x w =>
    have hasks := asks_ruleCount x w
    cases hread : ruleCountOf? line with
    | none => exact .inr ⟨_, (Reply.rejected.inj ((hasks.rejects hread).symm.trans h)).symm⟩
    | some count => cases (hasks.accepts hread).symm.trans h
  | rule x w index left scheme =>
    have hasks := asks_rule x w index left scheme
    cases hread : ruleOf? line with
    | none => exact .inl (Reply.rejected.inj ((hasks.rejects hread).symm.trans h)).symm
    | some p => cases (hasks.accepts hread).symm.trans h
  | expansions grammar =>
    have hasks := asks_expansions grammar
    cases hread : expansionsOf? line with
    | none => exact .inr ⟨_, (Reply.rejected.inj ((hasks.rejects hread).symm.trans h)).symm⟩
    | some count => cases (hasks.accepts hread).symm.trans h

/-- No question ends its line. -/
theorem lineFeed_not_mem_prompt (phase : Phase) : '\n' ∉ phase.prompt := by
  unfold prompt
  split
  case h_4 index _ _ =>
    have hnumber : '\n' ∉ Numeral.write index := Numeral.not_mem_write (by decide) index
    exact List.not_mem_append (List.not_mem_append (by decide) hnumber) (by decide)
  all_goals decide

end Phase

/-! ### Turns -/

/-- Whether the line of a turn is rejected. -/
def Turn.isRejected (turn : Turn) : Bool :=
  match turn.line.bind turn.phase.reply? with
  | some (.rejected _) => true
  | _ => false

/-- **One turn.**  A question ends no line, and a rejection ends one. -/
theorem Turn.count_said (turn : Turn) :
    turn.said.count '\n' = if turn.isRejected then 1 else 0 := by
  have hprompt := List.count_eq_zero.2 turn.phase.lineFeed_not_mem_prompt
  unfold said isRejected
  rw [List.count_append, hprompt, Nat.zero_add]
  cases hreply : turn.line.bind turn.phase.reply? with
  | none => rfl
  | some reply =>
    cases reply with
    | next phase => rfl
    | finished grammar count => rfl
    | rejected reason =>
      obtain ⟨line, -, hline⟩ := Option.bind_eq_some_iff.1 hreply
      obtain ⟨text, -, htext⟩ := Option.map_eq_some_iff.1 hline
      -- the message itself stays in its line, and the line feed behind it is the only one
      have hmessage : '\n' ∉ reason.message := by
        obtain rfl | ⟨field, rfl⟩ := Phase.reason_of_rejected htext
        · exact Error.lineFeed_not_mem_emptyRule
        · exact Error.lineFeed_not_mem_notANumber field text
      show (Dialogue.rejection reason).count '\n' = 1
      rw [Dialogue.rejection, List.count_append, List.count_eq_zero.2 hmessage]
      rfl

/-- **Only messages end lines.**  By induction on the turns: each has as many line feeds as it has
    messages. -/
theorem Turn.count_flatMap_said (turns : List Turn) :
    (turns.flatMap said).count '\n' = turns.countP isRejected := by
  induction turns with
  | nil => rfl
  | cons turn turns ih =>
    rw [List.flatMap_cons, List.count_append, turn.count_said, ih, List.countP_cons, Nat.add_comm]

namespace Dialogue

/-! ### The result -/

/-- **The result is made of what has been typed.**  A character that is in none of the lines is not
    in the generation that was asked for. -/
theorem Script.not_mem_result (s : Script) {c : Char} (h : ∀ line ∈ s.lines, c ∉ line) :
    c ∉ s.outcome.result := by
  have hstart : c ∉ s.start := h s.start (by simp [lines])
  have hrules : ∀ p ∈ s.rules.map Answer.value, c ∉ p.successor := by
    intro p hp hmem
    obtain ⟨a, ha, rfl⟩ := List.mem_map.1 hp
    have hline : a.line ∈ s.lines := by
      have hlines : a.line ∈ s.rules.flatMap Answer.lines :=
        List.mem_flatMap.2 ⟨a, ha, by simp [Answer.lines]⟩
      simp [lines, hlines]
    apply h a.line hline
    -- the successor is the line without its first character
    have hread := a.read_line
    cases htext : a.line with
    | nil =>
      rw [htext] at hread
      cases hread
    | cons symbol successor =>
      rw [htext] at hread
      rw [← Option.some.inj hread] at hmem
      exact List.mem_cons_of_mem _ hmem
  show c ∉ (s.grammar.scheme.expand s.start s.count).value
  rw [Scheme.expand_value]
  exact Scheme.not_mem_derive_collect hstart hrules s.count

/-- What is written at the end is one line, if anything is. -/
theorem count_closing {limit : Option Nat} {input : List UInt8} :
    (closing (ofInput limit input).outcome).count '\n' =
      if (ofInput limit input).outcome.isOk then 1 else 0 := by
  cases houtcome : (ofInput limit input).outcome with
  | error e => rfl
  | ok outcome =>
    obtain ⟨s, hfits, front, rest, hlines, hfront⟩ := exists_script houtcome
    obtain rfl : s.outcome = outcome := by
      have hs := (says_of_script hfits hfront rest).2
      rw [← hlines] at hs
      exact Except.ok.inj (hs.symm.trans houtcome)
    -- all that the script is made of has been read as lines
    have htyped : ∀ text ∈ s.lines, '\n' ∉ text := by
      intro text htext
      have hsome : some text ∈ front.map lineText? := by
        rw [hfront]
        exact List.mem_map_of_mem htext
      obtain ⟨line, hline, hread⟩ := List.mem_map.1 hsome
      have hmem : line ∈ lines input := by
        rw [hlines]
        exact List.mem_append_left _ hline
      exact lineFeed_not_mem_text hmem hread
    obtain ⟨line, hline, hresult⟩ := exists_line_of_resultLine (s.not_mem_result htyped) s.count
    show (resultLine s.count s.outcome.result).count '\n' = 1
    rw [hresult, List.count_append, List.count_eq_zero.2 hline]
    rfl

/-! ### Dialogues -/

/-- **Nothing that is typed can end a line of the output.**  There is one line feed for each line
    that is rejected, and one for the result if there is one.  What is quoted in a rejection can be
    told from what stands behind it, whatever escapes it has or looks like; so two rejections read
    the same only if the same was asked for and the same was typed. -/
theorem echoes_stay_in_line (limit : Option Nat) (input : List UInt8) :
    (ofInput limit input).output.count '\n' =
      (questions input).countP Turn.isRejected +
        (if (ofInput limit input).outcome.isOk then 1 else 0) ∧
    (∀ f g a b, (Error.notANumber f a).message = (Error.notANumber g b).message ↔
      f = g ∧ a = b) ∧
    ∀ s t x y : Text, s.quoted ++ x = t.quoted ++ y ↔ s = t ∧ x = y := by
  refine ⟨?_, fun _ _ _ _ => Error.message_notANumber_inj, fun s t x y => ⟨?_, ?_⟩⟩
  · have houtput : (ofInput limit input).output =
        (questions input).flatMap Turn.said ++ closing (ofInput limit input).outcome :=
      output_run limit .angle (lines input)
    rw [houtput, List.count_append, Turn.count_flatMap_said, count_closing]
  · exact Text.quoted_append_inj
  · rintro ⟨rfl, rfl⟩
    rfl

end Dialogue

end D0L
