import D0L.Proofs.Tally
import D0L.Report

namespace D0L

/-!
# Reports follow derivations

A report is made from censuses, one row at a time, and never looks at a generation.  This file
proves that its rows are those that the generations themselves would give.

* `Row.ofWord` — the row of a generation, found in the generation itself.
* `Survey.take_eq` — the first rows of a survey are the rows of the generations that it goes
  through, and end with the last of these.
* `report_counts_generations` — the rows of a report, and of the first part of one.
-/

/-- The row of a generation, found in the generation itself. -/
def Row.ofWord (scheme : Scheme) (generation : Nat) (w : Word) : Row where
  generation
  length := min w.length maxCount
  replaced := min (w.countP scheme.replaces) maxCount
  kept := min w.length maxCount - min (w.countP scheme.replaces) maxCount

/-- The row of a census is the row of the word that it is the census of. -/
theorem Census.Tallies.rowOfCensus_eq {c : Census} {w : Word} (h : c.Tallies w.count)
    (scheme : Scheme) (generation : Nat) (order : VisitOrder) :
    Row.ofCensus scheme generation c order = Row.ofWord scheme generation w := by
  unfold Row.ofCensus Row.ofWord
  rw [h.total_eq, h.totalOf_eq]

/-- No more symbols are replaced than there are, also where one of the counts has stopped. -/
theorem Row.replaced_le_length (scheme : Scheme) (generation : Nat) (w : Word) :
    (Row.ofWord scheme generation w).replaced ≤ (Row.ofWord scheme generation w).length := by
  have hle : w.countP scheme.replaces ≤ w.length := List.countP_le_length
  show min (w.countP scheme.replaces) maxCount ≤ min w.length maxCount
  omega

/-- The symbols of a generation are replaced or kept. -/
theorem Row.length_eq_replaced_add_kept (scheme : Scheme) (generation : Nat) (w : Word) :
    (Row.ofWord scheme generation w).length =
      (Row.ofWord scheme generation w).replaced + (Row.ofWord scheme generation w).kept :=
  (Nat.add_sub_of_le (Row.replaced_le_length scheme generation w)).symm

namespace Survey

variable {scheme : Scheme} {s : Survey} {w : Word}

/-- **The first rows.**  A survey that stands at a word goes on through the generations after it.
    It ends by itself behind the last one, however many rows are wanted. -/
theorem take_eq (h : s.census.Tallies w.count) (t : Nat) (orders : Nat → VisitOrder) :
    s.take scheme t orders =
      (List.range (min t (s.remaining + 1))).map fun i =>
        Row.ofWord scheme (s.generation + i) (scheme.derive i w) := by
  induction t generalizing s w with
  | zero =>
    rw [Nat.zero_min]
    rfl
  | succ t ih =>
    have hrow : s.row scheme (orders s.generation) = Row.ofWord scheme s.generation w :=
      h.rowOfCensus_eq scheme s.generation _
    by_cases hlast : s.remaining = 0
    · -- the last row is taken, and the survey is over
      rw [take_of_last hlast, hrow, hlast, Nat.min_eq_right (by omega)]
      rfl
    · -- the survey goes on, with one generation fewer to come
      have hrest := ih (s := s.advance scheme (orders s.generation)) (h.next scheme _)
      have hcount : min (t + 1) (s.remaining + 1) = min t (s.remaining - 1 + 1) + 1 := by omega
      rw [take_of_more hlast, hrow, hrest, hcount, List.range_succ_eq_map, List.map_cons,
        List.map_map]
      refine congrArg (List.cons _) (List.map_congr_left fun i _ => ?_)
      show Row.ofWord scheme (s.generation + 1 + i) _ = Row.ofWord scheme (s.generation + (i + 1)) _
      rw [Nat.add_assoc, Nat.add_comm 1]
      rfl

/-- The first rows of the survey from a word. -/
theorem take_start_eq (scheme : Scheme) (start : Word) (n t : Nat) (orders : Nat → VisitOrder) :
    (Survey.start start n).take scheme t orders =
      (List.range (min t (n + 1))).map fun k =>
        Row.ofWord scheme k (scheme.expand start k).value := by
  rw [take_eq (Census.tallies_ofWord start)]
  apply List.map_congr_left
  intro k _
  rw [Scheme.expand_value]
  exact congrArg (Row.ofWord scheme · _) (Nat.zero_add k)

end Survey

/-- **A report counts the generations.**  It has one row for each generation up to the `n`-th, with
    its length and the number of letters that have a successor, each as far as counts go.  Never
    more symbols are replaced than there are, so that the others can be counted by a difference.
    The first rows can be had without the others, and do not depend on how many there are. -/
theorem report_counts_generations (scheme : Scheme) (start : Word) (n : Nat)
    (orders : Nat → VisitOrder) :
    (report scheme start n orders).length = n + 1 ∧
    (∀ k ≤ n, ∃ row, (report scheme start n orders)[k]? = some row ∧
      row.generation = k ∧
      row.length = min (scheme.expand start k).value.length maxCount ∧
      row.replaced = min ((scheme.expand start k).value.countP fun s =>
        s.isLetter && (scheme.get? s).isSome) maxCount ∧
      row.replaced ≤ row.length ∧
      row.length = row.replaced + row.kept) ∧
    (∀ t, (Survey.start start n).take scheme t orders =
      (report scheme start n orders).take (min t (n + 1))) ∧
    ∀ t m, min t (m + 1) = min t (n + 1) →
      (Survey.start start m).take scheme t orders =
        (Survey.start start n).take scheme t orders := by
  -- every part is read off the row of a word
  have hreport : report scheme start n orders =
      (List.range (n + 1)).map fun k => Row.ofWord scheme k (scheme.expand start k).value := by
    unfold report
    rw [Survey.take_start_eq, Nat.min_self]
  refine ⟨?_, ?_, ?_, ?_⟩
  · rw [hreport, List.length_map, List.length_range]
  · intro k hk
    refine ⟨Row.ofWord scheme k (scheme.expand start k).value, ?_, rfl, rfl, rfl,
      Row.replaced_le_length .., Row.length_eq_replaced_add_kept ..⟩
    rw [hreport, List.getElem?_map, List.getElem?_range (Nat.lt_succ_of_le hk)]
    rfl
  · intro t
    rw [Survey.take_start_eq, hreport, ← List.map_take, List.take_range, Nat.min_assoc,
      Nat.min_self]
  · intro t m hm
    rw [Survey.take_start_eq, Survey.take_start_eq, hm]

end D0L
