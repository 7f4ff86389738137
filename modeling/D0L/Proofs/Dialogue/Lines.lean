import D0L.Dialogue

namespace D0L.Dialogue

/-!
# The lines of some input

Lines are split off one byte at a time.  This file says what comes out of it, and what becomes of
the lines when the input is cut or goes on in another way.

* `lines_eq_pieces` — the lines are the pieces between line feeds; what stands behind the last
  line feed is a line only if there is something.
* `keepLines` — the first lines of some input, with the line feeds at their ends.
* `lines_keepLines`, `lines_append` — cutting behind a line, and going on behind one.
* `lineFeed_not_mem_text` — no line has a line feed in it; and the line that shows a result has
  none but at its end, unless the result has (`exists_line_of_resultLine`).
-/

/-- The byte that ends a line. -/
def lineFeed : UInt8 := '\n'.toUInt8

/-- The pieces between line feeds, without the last one if it is empty. -/
def pieces (input : List UInt8) : List (List UInt8) :=
  if (input.splitOn lineFeed).getLast? = some [] then (input.splitOn lineFeed).dropLast
  else input.splitOn lineFeed

/-- The start of some input, up to the `n`-th line feed. -/
def keepLines : Nat → List UInt8 → List UInt8
  | 0, _ => []
  | _ + 1, [] => []
  | n + 1, b :: rest => b :: keepLines (if b = lineFeed then n else n + 1) rest

/-- What is kept of an input is its front. -/
theorem keepLines_isPrefix (n : Nat) (input : List UInt8) : keepLines n input <+: input := by
  induction input generalizing n with
  | nil => cases n <;> exact List.prefix_rfl
  | cons b rest ih =>
    cases n with
    | zero => exact List.nil_prefix
    | succ n => exact List.cons_prefix_cons.2 ⟨rfl, ih _⟩

/-! ### One byte -/

@[simp] theorem linesFrom_nil (line : List UInt8) :
    linesFrom line [] = if line = [] then [] else [line.reverse] := rfl

@[simp] theorem linesFrom_lineFeed (line rest : List UInt8) :
    linesFrom line (lineFeed :: rest) = line.reverse :: linesFrom [] rest :=
  if_pos rfl

/-- Any other byte goes to the line. -/
theorem linesFrom_cons_of_ne {b : UInt8} (h : b ≠ lineFeed) (line rest : List UInt8) :
    linesFrom line (b :: rest) = linesFrom (b :: line) rest :=
  if_neg h

/-- Up to a line feed all bytes belong to one line. -/
theorem linesFrom_append_lineFeed {bytes : List UInt8} (h : lineFeed ∉ bytes)
    (line rest : List UInt8) :
    linesFrom line (bytes ++ lineFeed :: rest) = (line.reverse ++ bytes) :: linesFrom [] rest := by
  induction bytes generalizing line with
  | nil => rw [List.nil_append, linesFrom_lineFeed, List.append_nil]
  | cons b bytes ih =>
    obtain ⟨hb, hrest⟩ := List.ne_and_not_mem_of_not_mem_cons h
    rw [List.cons_append, linesFrom_cons_of_ne hb.symm, ih hrest, List.reverse_cons,
      List.append_assoc, List.singleton_append]

/-! ### Lines are pieces -/

/-- The lines of some input, when the bytes in `line` stand before it. -/
theorem linesFrom_eq (line input : List UInt8) :
    linesFrom line input =
      let parts := input.splitOnPPrepend (· == lineFeed) line
      if parts.getLast? = some [] then parts.dropLast else parts := by
  induction input generalizing line with
  | nil =>
    rw [linesFrom_nil, List.splitOnPPrepend_nil]
    by_cases h : line = [] <;> simp [h]
  | cons b rest ih =>
    by_cases hb : b = lineFeed
    · -- a line ends here, and the pieces of the rest are never none at all
      subst hb
      have hne : rest.splitOnP (· == lineFeed) ≠ [] := List.splitOnP_ne_nil _ _
      have hrest := ih []
      rw [List.splitOnPPrepend_nil_right] at hrest
      rw [linesFrom_lineFeed, hrest,
        List.splitOnPPrepend_cons_pos (p := (· == lineFeed)) (beq_self_eq_true _)]
      simp only [List.getLast?_cons_of_ne_nil hne, List.dropLast_cons_of_ne_nil hne]
      split <;> rfl
    · rw [linesFrom_cons_of_ne hb, ih,
        List.splitOnPPrepend_cons_neg (p := (· == lineFeed)) (beq_false_of_ne hb)]

/-- **Lines are the pieces between line feeds.** -/
theorem lines_eq_pieces (input : List UInt8) : lines input = pieces input :=
  linesFrom_eq [] input

/-! ### Cutting and going on -/

/-- Behind the end of a line, lines do not depend on what stands before. -/
theorem linesFrom_append {line head : List UInt8} (h : head.getLast? = some lineFeed)
    (more : List UInt8) :
    linesFrom line (head ++ more) = linesFrom line head ++ lines more := by
  induction head generalizing line with
  | nil => exact absurd h (by simp)
  | cons b head ih =>
    rw [List.cons_append]
    by_cases hnil : head = []
    · -- `b` is the last byte, which is the line feed
      subst hnil
      obtain rfl : b = lineFeed := by simpa using h
      rw [linesFrom_lineFeed, linesFrom_lineFeed]
      rfl
    · rw [List.getLast?_cons_of_ne_nil hnil] at h
      by_cases hb : b = lineFeed
      · rw [hb, linesFrom_lineFeed, linesFrom_lineFeed, ih h, List.cons_append]
      · rw [linesFrom_cons_of_ne hb, linesFrom_cons_of_ne hb, ih h]

/-- Input that goes on behind the end of a line has the lines of both parts. -/
theorem lines_append {head : List UInt8} (h : head.getLast? = some lineFeed)
    (more : List UInt8) : lines (head ++ more) = lines head ++ lines more :=
  linesFrom_append h more

/-- Keeping some lines of an input is keeping so many of its lines. -/
theorem linesFrom_keepLines {n : Nat} {line : List UInt8} (h : n = 0 → line = [])
    (input : List UInt8) : linesFrom line (keepLines n input) = (linesFrom line input).take n := by
  induction input generalizing n line with
  | nil =>
    cases n with
    | zero => rw [h rfl, keepLines, List.take_zero]; rfl
    | succ n =>
      rw [keepLines, linesFrom_nil]
      split <;> simp
  | cons b rest ih =>
    cases n with
    | zero => rw [h rfl, keepLines, List.take_zero]; rfl
    | succ n =>
      rw [keepLines]
      by_cases hb : b = lineFeed
      · -- one line is complete, and the next one starts without any byte
        rw [if_pos hb, hb, linesFrom_lineFeed, linesFrom_lineFeed, ih fun _ => rfl,
          List.take_succ_cons]
      · rw [if_neg hb, linesFrom_cons_of_ne hb, linesFrom_cons_of_ne hb, ih (by simp)]

/-- The first lines of some input are the lines of what is kept of it. -/
theorem lines_keepLines (n : Nat) (input : List UInt8) :
    lines (keepLines n input) = (lines input).take n :=
  linesFrom_keepLines (fun _ => rfl) input

/-! ### No line feeds in lines -/

/-- A line feed is one byte, which is in no other character. -/
theorem lineFeed_mem_toBytes_iff {t : Text} : lineFeed ∈ Text.toBytes t ↔ '\n' ∈ t :=
  Text.toUInt8_mem_toBytes_iff (by decide)

/-- Lines are cut at all line feeds, so none is left in a line. -/
theorem lineFeed_not_mem_of_mem_linesFrom {line : List UInt8} (h : lineFeed ∉ line)
    {input : List UInt8} : ∀ l ∈ linesFrom line input, lineFeed ∉ l := by
  induction input generalizing line with
  | nil =>
    rw [linesFrom_nil]
    split
    · exact List.forall_mem_nil _
    · simpa using h
  | cons b rest ih =>
    by_cases hb : b = lineFeed
    · rw [hb, linesFrom_lineFeed]
      exact List.forall_mem_cons.2 ⟨by simpa using h, ih (by simp)⟩
    · rw [linesFrom_cons_of_ne hb]
      exact ih (by simpa [h] using Ne.symm hb)

/-- **What is read is one line.**  No text of a line has a line feed in it. -/
theorem lineFeed_not_mem_text {input line : List UInt8} {text : Text} (hline : line ∈ lines input)
    (h : lineText? line = some text) : '\n' ∉ text := by
  obtain ⟨t, ht, rfl⟩ := Option.map_eq_some_iff.1 h
  have hbytes : lineFeed ∉ line := lineFeed_not_mem_of_mem_linesFrom (by simp) line hline
  rw [Text.ofBytes?_eq_some_iff.1 ht, lineFeed_mem_toBytes_iff] at hbytes
  -- the carriage returns that are dropped change nothing about that
  exact fun hmem => hbytes (Text.mem_of_mem_dropEndWhile hmem)

/-- The line that shows a generation is one line. -/
theorem exists_line_of_resultLine {w : Word} (h : '\n' ∉ w) (n : Nat) :
    ∃ line, '\n' ∉ line ∧ resultLine n w = line ++ ['\n'] := by
  refine ⟨_, ?_, rfl⟩
  have hnumber : '\n' ∉ Numeral.write n := Numeral.not_mem_write (by decide) n
  simp only [List.mem_append, not_or]
  exact ⟨⟨⟨by decide, hnumber⟩, by decide⟩, h⟩

end D0L.Dialogue
