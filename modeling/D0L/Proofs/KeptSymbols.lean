import D0L.Proofs.ReportRows

namespace D0L

/-!
# Kept symbols in a report

A report has the number of kept symbols as a difference of two counts, each of which may have
stopped.  The difference is the number of kept symbols, as far as counts go, as long as the length
has not stopped; beyond that it is what is left below the greatest count, and comes out too small
wherever some symbols are kept and some are not.

* `Row.kept_ofWord_eq_iff` — when the column of a generation is right.
* `report_keeps` — the column in all generations of a report.
* `report_loses_mark` — a generation with a mark that the report does not count.
-/

/-- The number of symbols of a word that are not replaced in the next generation. -/
def Scheme.countKept (scheme : Scheme) (w : Word) : Nat :=
  w.countP fun s => !(s.isLetter && (scheme.get? s).isSome)

/-- Each symbol is replaced or kept. -/
theorem Scheme.length_eq_replaced_add_kept (scheme : Scheme) (w : Word) :
    w.length = w.countP scheme.replaces + scheme.countKept w := by
  rw [w.length_eq_countP_add_countP scheme.replaces]
  refine congrArg (_ + ·) (List.countP_congr fun s _ => ?_)
  rw [decide_eq_true_eq, Bool.not_eq_true']
  exact iff_of_eq (Bool.not_eq_true _)

namespace Row

variable (scheme : Scheme) (generation : Nat) (w : Word)

/-- As long as the length has not stopped, the column is right. -/
theorem kept_ofWord_of_le (h : w.length ≤ maxCount) :
    (ofWord scheme generation w).kept = scheme.countKept w := by
  have hlength := scheme.length_eq_replaced_add_kept w
  show min w.length maxCount - min (w.countP scheme.replaces) maxCount = scheme.countKept w
  omega

/-- Once the length has stopped, the column has what is left below the greatest count. -/
theorem kept_ofWord_of_lt (h : maxCount < w.length) :
    (ofWord scheme generation w).kept = maxCount - min (w.countP scheme.replaces) maxCount := by
  show min w.length maxCount - min (w.countP scheme.replaces) maxCount = _
  rw [Nat.min_eq_right h.le]

/-- The column never has too many. -/
theorem kept_ofWord_le :
    (ofWord scheme generation w).kept ≤ min (scheme.countKept w) maxCount := by
  have hlength := scheme.length_eq_replaced_add_kept w
  show min w.length maxCount - min (w.countP scheme.replaces) maxCount ≤ _
  omega

/-- The column is right unless the length has stopped, some symbols are replaced, and some kept. -/
theorem kept_ofWord_eq_iff :
    (ofWord scheme generation w).kept = min (scheme.countKept w) maxCount ↔
      w.length ≤ maxCount ∨ w.countP scheme.replaces = 0 ∨ scheme.countKept w = 0 := by
  have hlength := scheme.length_eq_replaced_add_kept w
  have hpos : 0 < maxCount := by decide
  show min w.length maxCount - min (w.countP scheme.replaces) maxCount = _ ↔ _
  -- of the greatest count nothing matters but that it is positive
  generalize maxCount = top at *
  omega

end Row

/-- The row of a generation in a report. -/
theorem report_getElem? (scheme : Scheme) (start : Word) (orders : Nat → VisitOrder) {n k : Nat}
    (hk : k ≤ n) :
    (report scheme start n orders)[k]?
      = some (Row.ofWord scheme k (scheme.expand start k).value) := by
  rw [report, Survey.take_start_eq, Nat.min_self, List.getElem?_map,
    List.getElem?_range (Nat.lt_succ_of_le hk)]
  rfl

/-- A scheme that doubles its only letter. -/
def doubling : Scheme := Scheme.empty.set 'A' "AA".toList

/-- **The column of kept symbols.**  As long as the length of a generation has not stopped, the
    report has the number of its symbols that are no letters or have no successor.  Beyond that it
    has what the replaced ones leave of the greatest count, which is never more than that number,
    and is that number, as far as counts go, only if no symbol is replaced or none kept. -/
theorem report_keeps (scheme : Scheme) (start : Word) (n : Nat) (orders : Nat → VisitOrder)
    {k : Nat} (hk : k ≤ n) :
    ∃ row, (report scheme start n orders)[k]? = some row ∧ row.generation = k ∧
      ((scheme.expand start k).value.length ≤ maxCount →
        row.kept = scheme.countKept (scheme.expand start k).value) ∧
      (maxCount < (scheme.expand start k).value.length →
        row.kept = maxCount -
          min ((scheme.expand start k).value.countP scheme.replaces) maxCount) ∧
      row.kept ≤ min (scheme.countKept (scheme.expand start k).value) maxCount ∧
      (row.kept = min (scheme.countKept (scheme.expand start k).value) maxCount ↔
        (scheme.expand start k).value.length ≤ maxCount ∨
        (scheme.expand start k).value.countP scheme.replaces = 0 ∨
        scheme.countKept (scheme.expand start k).value = 0) :=
  ⟨_, report_getElem? scheme start orders hk, rfl, Row.kept_ofWord_of_le scheme k _,
    Row.kept_ofWord_of_lt scheme k _, Row.kept_ofWord_le scheme k _,
    Row.kept_ofWord_eq_iff scheme k _⟩

/-- The row of a report that has been doubling letters for one generation. -/
theorem report_keeps_doubling :
    1 ≤ 1 ∧ ∃ row, (report doubling "+A".toList 1 fun _ => .ascending)[1]? = some row ∧
      row.kept = 1 := by
  obtain ⟨row, hrow, -, hkept, -⟩ :=
    report_keeps doubling "+A".toList 1 (fun _ => .ascending) (Nat.le_refl 1)
  refine ⟨Nat.le_refl 1, row, hrow, ?_⟩
  rw [hkept (by decide)]
  decide

/-! ### A mark beside very many letters -/

/-- A mark with letters behind it keeps the mark and doubles the letters. -/
theorem derive_doubling (n m : Nat) :
    doubling.derive n ('+' :: List.replicate m 'A')
      = '+' :: List.replicate (m * power 2 n) 'A' := by
  induction n generalizing m with
  | zero =>
    rw [Scheme.derive_zero, show power 2 0 = 1 from rfl, Nat.mul_one]
  | succ n ih =>
    have hnext : doubling.next ('+' :: List.replicate m 'A')
        = '+' :: List.replicate (m * 2) 'A' := by
      show ['+'] ++ (List.replicate m 'A').flatMap doubling.image = _
      rw [List.flatMap_replicate, show doubling.image 'A' = List.replicate 2 'A' by decide,
        List.flatten_replicate_replicate]
      rfl
    rw [Scheme.derive_succ, hnext, ih, power_succ, Nat.mul_assoc, Nat.mul_comm 2]

/-- What a report counts in the generations after a mark with one letter. -/
theorem counts_doubling (n : Nat) :
    (doubling.expand "+A".toList n).value.length = power 2 n + 1 ∧
      (doubling.expand "+A".toList n).value.countP doubling.replaces = power 2 n ∧
      doubling.countKept (doubling.expand "+A".toList n).value = 1 := by
  have hword : (doubling.expand "+A".toList n).value = '+' :: List.replicate (power 2 n) 'A' := by
    rw [Scheme.expand_value]
    exact (derive_doubling n 1).trans (by rw [Nat.one_mul])
  have hlength : (doubling.expand "+A".toList n).value.length = power 2 n + 1 := by
    rw [hword, List.length_cons, List.length_replicate]
  have hreplaced : (doubling.expand "+A".toList n).value.countP doubling.replaces = power 2 n := by
    rw [hword, List.countP_cons, List.countP_replicate, if_pos (by decide), if_neg (by decide),
      Nat.add_zero]
  have hall := doubling.length_eq_replaced_add_kept (doubling.expand "+A".toList n).value
  exact ⟨hlength, hreplaced, by omega⟩

/-- **A mark that is lost.**  After 128 generations a mark still stands before `2 ^ 128` letters,
    but both counts have stopped, and the report says that no symbol is kept. -/
theorem report_loses_mark :
    doubling.countKept (doubling.expand "+A".toList 128).value = 1 ∧
      ∃ row, (report doubling "+A".toList 128)[128]? = some row ∧ row.kept = 0 ∧
        row.kept ≠ min (doubling.countKept (doubling.expand "+A".toList 128).value) maxCount := by
  obtain ⟨hlength, hreplaced, hkept⟩ := counts_doubling 128
  have hrow := report_getElem? doubling "+A".toList (fun _ => .ascending) (Nat.le_refl 128)
  generalize (doubling.expand "+A".toList 128).value = w at *
  have hlong : maxCount < w.length := by
    rw [hlength]
    decide
  have hzero : (Row.ofWord doubling 128 w).kept = 0 := by
    rw [Row.kept_ofWord_of_lt _ _ _ hlong, hreplaced]
    decide
  refine ⟨hkept, _, hrow, hzero, ?_⟩
  rw [hzero, hkept]
  decide

end D0L
