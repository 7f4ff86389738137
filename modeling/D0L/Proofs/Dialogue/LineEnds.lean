import D0L.Proofs.Dialogue.Turns

namespace D0L

/-!
# Line ends

Where lines end in a carriage return and a line feed, the carriage return is no part of the line,
nor are any others before it.  This file proves that they never show, whatever stands in the line,
and that the line feed behind the last line may be missing.

* `Dialogue.run_eq_of_texts` — a dialogue knows of each line only the text that it stands for.
* `Dialogue.WithReturns` — some input with carriage returns put before its line feeds.
* `Dialogue.lineText?_append_returns` — one line; also one that is no text, with or without them.
* `Dialogue.WithReturns.texts_eq` — all lines of some input.
* `Dialogue.ignores_line_ends` — what becomes of a dialogue: nothing.
-/

namespace Dialogue

variable {limit : Option Nat} {phase : Phase}

/-! ### Texts of lines -/

/-- **Nothing but the texts of the lines matters.**  Lines that are no text are all the same. -/
theorem run_eq_of_texts {ls ls' : List (List UInt8)} (h : ls.map lineText? = ls'.map lineText?) :
    run limit phase ls = run limit phase ls' := by
  induction ls generalizing phase ls' with
  | nil =>
    obtain rfl := List.map_eq_nil_iff.1 h.symm
    rfl
  | cons line rest ih =>
    obtain ⟨line', rest', rfl, hline, hrest⟩ := List.map_eq_cons_iff.1 h.symm
    have hrun (next : Phase) : run limit next rest = run limit next rest' := ih hrest.symm
    rw [run, run, hline]
    simp only [hrun]

/-! ### Carriage returns -/

/-- The byte that may stand before the one that ends a line. -/
def carriageReturn : UInt8 := '\r'.toUInt8

/-- The second input is the first one with any number of carriage returns put directly before any
    of its line feeds. -/
inductive WithReturns : List UInt8 → List UInt8 → Prop
  /-- Nothing is put behind the last line feed. -/
  | nil : WithReturns [] []
  /-- Nothing is put before this byte. -/
  | keep (b : UInt8) {input input' : List UInt8} (rest : WithReturns input input') :
      WithReturns (b :: input) (b :: input')
  /-- Carriage returns are put before this line feed. -/
  | feed (n : Nat) {input input' : List UInt8} (rest : WithReturns input input') :
      WithReturns (lineFeed :: input) (List.replicate n carriageReturn ++ lineFeed :: input')

/-- A carriage return at the end of a line does not show. -/
theorem lineText?_concat_return (line : List UInt8) :
    lineText? (line ++ [carriageReturn]) = lineText? line := by
  unfold lineText? carriageReturn
  rw [Text.ofBytes?_concat_of_ascii (by decide), Option.map_map]
  refine congrArg (Option.map · _) (funext fun t => ?_)
  exact Text.dropEndWhile_append_of_all (List.forall_mem_singleton.2 (decide_eq_true rfl))

/-- **One line.**  Carriage returns at its end do not show. -/
theorem lineText?_append_returns (n : Nat) (line : List UInt8) :
    lineText? (line ++ List.replicate n carriageReturn) = lineText? line := by
  induction n with
  | zero => rw [List.replicate_zero, List.append_nil]
  | succ n ih =>
    rw [List.replicate_succ', ← List.append_assoc, lineText?_concat_return, ih]

/-- **All lines.**  Each of them stands for the same text with carriage returns and without. -/
theorem WithReturns.texts_eq {input input' : List UInt8} (h : WithReturns input input')
    (line : List UInt8) :
    (linesFrom line input').map lineText? = (linesFrom line input).map lineText? := by
  induction h generalizing line with
  | nil => rfl
  | keep b _ ih =>
    by_cases hb : b = lineFeed
    · rw [hb, linesFrom_lineFeed, linesFrom_lineFeed, List.map_cons, List.map_cons, ih]
    · rw [linesFrom_cons_of_ne hb, linesFrom_cons_of_ne hb, ih]
  | feed n _ ih =>
    -- what stands before this line feed is one line, with `n` carriage returns at its end
    have hreturns : lineFeed ∉ List.replicate n carriageReturn := fun hmem =>
      absurd (List.eq_of_mem_replicate hmem) (by decide)
    rw [linesFrom_append_lineFeed hreturns, linesFrom_lineFeed, List.map_cons, List.map_cons,
      lineText?_append_returns, ih]

/-! ### The last line feed -/

/-- A line feed at the end of a line that is not empty may as well be missing. -/
theorem linesFrom_concat_lineFeed {line input : List UInt8} (hline : input = [] → line ≠ [])
    (hinput : input.getLast? ≠ some lineFeed) :
    linesFrom line (input ++ [lineFeed]) = linesFrom line input := by
  induction input generalizing line with
  | nil => rw [List.nil_append, linesFrom_lineFeed, linesFrom_nil, linesFrom_nil, if_pos rfl,
      if_neg (hline rfl)]
  | cons b rest ih =>
    rw [List.cons_append]
    by_cases hb : b = lineFeed
    · -- the input does not end in a line feed, so this one is not its last byte
      have hrest : rest ≠ [] := by
        rintro rfl
        exact hinput (congrArg some hb)
      rw [List.getLast?_cons_of_ne_nil hrest] at hinput
      rw [hb, linesFrom_lineFeed, linesFrom_lineFeed, ih (fun hnil => absurd hnil hrest) hinput]
    · rw [linesFrom_cons_of_ne hb, linesFrom_cons_of_ne hb]
      refine ih (fun _ => List.cons_ne_nil b line) fun hlast => hinput ?_
      rw [List.getLast?_cons_of_ne_nil (List.ne_nil_of_mem (List.mem_of_getLast? hlast)), hlast]

/-! ### Dialogues -/

/-- **Line ends do not matter.**  A dialogue writes and reports the same, and comes to the same end,
    whether there are carriage returns before the line feeds of its input, and how many, or not.
    The line feed at the end of a last line that is not empty can be left out. -/
theorem ignores_line_ends (limit : Option Nat) (input : List UInt8) :
    (∀ input', WithReturns input input' → ofInput limit input' = ofInput limit input) ∧
    (input ≠ [] → input.getLast? ≠ some lineFeed →
      ofInput limit (input ++ [lineFeed]) = ofInput limit input) := by
  refine ⟨fun input' h => ?_, fun hne hlast => ?_⟩
  · exact run_eq_of_texts (h.texts_eq [])
  · unfold ofInput lines
    rw [linesFrom_concat_lineFeed (fun hnil => absurd hnil hne) hlast]

/-- Some input with a carriage return put before every line feed. -/
def crlf (input : List UInt8) : List UInt8 :=
  input.flatMap fun b => if b = lineFeed then [carriageReturn, b] else [b]

/-- Lines that end in the way of other systems have a return in front of every line feed. -/
theorem withReturns_crlf (input : List UInt8) : WithReturns input (crlf input) := by
  induction input with
  | nil => exact .nil
  | cons b rest ih =>
    unfold crlf at ih ⊢
    rw [List.flatMap_cons]
    by_cases hb : b = lineFeed
    · rw [if_pos hb, hb]
      exact .feed 1 ih
    · rw [if_neg hb]
      exact .keep b ih

/-- The empty line becomes one that is a carriage return, and the last line gets a line feed. -/
theorem ignores_line_ends_emptyRuleInput :
    WithReturns emptyRuleInput (crlf emptyRuleInput) ∧ crlf emptyRuleInput ≠ emptyRuleInput ∧
      ofInput none (crlf emptyRuleInput) = ofInput none emptyRuleInput ∧
      emptyRuleInput ≠ [] ∧ emptyRuleInput.getLast? ≠ some lineFeed ∧
      ofInput none (emptyRuleInput ++ [lineFeed]) = ofInput none emptyRuleInput := by
  have hreturns := withReturns_crlf emptyRuleInput
  have hother : crlf emptyRuleInput ≠ emptyRuleInput := by decide +kernel
  have hne : emptyRuleInput ≠ [] := by decide +kernel
  have hlast : emptyRuleInput.getLast? ≠ some lineFeed := by decide +kernel
  obtain ⟨hsame, hfeed⟩ := ignores_line_ends none emptyRuleInput
  exact ⟨hreturns, hother, hsame _ hreturns, hne, hlast, hfeed hne hlast⟩

end Dialogue

end D0L
