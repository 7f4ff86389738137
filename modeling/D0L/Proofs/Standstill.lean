import D0L.Proofs.LengthLimit
import D0L.Proofs.ReportRows

namespace D0L

/-!
# Standing still

A generation in which nothing is replaced is its own next generation, and so it is every later one.
Whether anything is replaced can be told from a report, which knows the counts of a generation only:
counts stop, but none of them stops at zero.

* `Scheme.next_eq_self`, `Scheme.derive_eq_self` — one generation, and any number of them.
* `Row.replaced_ofWord_eq_zero_iff` — what a row tells that has no replaced symbols.
* `Scheme.expandWithin_of_standstill` — no limit is passed for the first time behind a standstill.
* `Scheme.stands_still` — what such a row says about all later generations.
-/

namespace Scheme

variable {scheme : Scheme} {start w : Word} {k : Nat}

/-! ### Generations -/

/-- A symbol that is not replaced stays. -/
theorem image_eq_self {s : Symbol} (h : scheme.replaces s = false) : scheme.image s = [s] := by
  obtain hsame | ⟨w, hletter, hget, -⟩ := scheme.image_cases s
  · exact hsame
  · simp [replaces, hletter, hget] at h

/-- **One generation.** -/
theorem next_eq_self (h : ∀ s ∈ w, scheme.replaces s = false) : scheme.next w = w :=
  calc scheme.next w
      = w.flatMap fun s => [s] := List.flatMap_congr fun s hs => image_eq_self (h s hs)
    _ = w := List.flatMap_singleton' w

/-- **Any number of generations.** -/
theorem derive_eq_self (h : scheme.next w = w) (n : Nat) : scheme.derive n w = w := by
  induction n with
  | zero => rfl
  | succ n ih => rw [derive_succ, h, ih]

/-- From a generation on that is its own next one all generations are the same. -/
theorem derive_eq_of_standstill (h : scheme.next (scheme.derive k start) = scheme.derive k start)
    {m : Nat} (hm : k ≤ m) : scheme.derive m start = scheme.derive k start := by
  obtain ⟨d, rfl⟩ := Nat.exists_eq_add_of_le hm
  rw [derive_add]
  exact derive_eq_self h d

/-- **Limits at a standstill.**  An expansion that fails fails at the standstill or before it, and
    one that goes on behind the standstill does what it did up to there. -/
theorem expandWithin_of_standstill
    (h : scheme.next (scheme.derive k start) = scheme.derive k start) (limit m : Nat) :
    (∀ e, (scheme.expandWithin limit start m).outcome = .error e →
      ∃ generation ≤ k, ∃ length, e = .overLimit generation length limit) ∧
    (k ≤ m → (scheme.expandWithin limit start m).outcome =
      (scheme.expandWithin limit start k).outcome) := by
  obtain hwithin | ⟨j, hj, hbefore, hover⟩ := scheme.within_or_first_overlong limit start m
  · -- no generation is too long, and there are no others behind the standstill
    rw [expandWithin_of_le hwithin]
    refine ⟨fun e he => ?_, fun hm => ?_⟩
    · cases he
    · rw [expandWithin_of_le fun i hi => hwithin i (hi.trans hm), Attempt.outcome_lift,
        Attempt.outcome_lift, expand_value, expand_value, derive_eq_of_standstill h hm]
  · -- the first generation that is too long differs from all before it
    -- a later one would have the word of generation `k`, which was short enough
    have hjk : j ≤ k := by
      by_contra hlater
      rw [Nat.not_le] at hlater
      rw [derive_eq_of_standstill h hlater.le] at hover
      exact Nat.not_lt.2 (hbefore k hlater) hover
    rw [expandWithin_of_lt hj hbefore hover, Attempt.outcome_lift_bind, Attempt.outcome_throw]
    refine ⟨fun e he => ?_, fun _ => ?_⟩
    · exact ⟨j, hjk, _, (Except.error.inj he).symm⟩
    · rw [expandWithin_of_lt hjk hbefore hover, Attempt.outcome_lift_bind, Attempt.outcome_throw]

end Scheme

/-! ### Rows -/

/-- A row has no replaced symbols only if there are none: a count that has stopped is not zero. -/
theorem Row.replaced_ofWord_eq_zero_iff (scheme : Scheme) (generation : Nat) (w : Word) :
    (Row.ofWord scheme generation w).replaced = 0 ↔ ∀ s ∈ w, scheme.replaces s = false := by
  have hpos : 1 ≤ maxCount := Census.one_le_maxCount
  have hzero : (Row.ofWord scheme generation w).replaced = 0 ↔ w.countP scheme.replaces = 0 := by
    show min (w.countP scheme.replaces) maxCount = 0 ↔ _
    omega
  rw [hzero, List.countP_eq_zero]
  simp

/-- A row of a report is that of the generation whose number it has. -/
theorem eq_ofWord_of_report_getElem? {scheme : Scheme} {start : Word} {n k : Nat}
    {orders : Nat → VisitOrder} {row : Row}
    (h : (report scheme start n orders)[k]? = some row) :
    row = Row.ofWord scheme k (scheme.expand start k).value := by
  rw [report, Survey.take_start_eq, List.getElem?_map] at h
  obtain ⟨i, hi, rfl⟩ := Option.map_eq_some_iff.1 h
  obtain ⟨_, rfl⟩ := List.getElem?_eq_some_iff.1 hi
  rw [List.getElem_range]

namespace Scheme

/-- **A row without replaced symbols is the last one that has to be looked at.**  All later
    generations are the same word; their rows are the same in every report, but for their number;
    and no limit is passed at one of them, so that an expansion under a limit fails at this
    generation or before it, or not at all. -/
theorem stands_still (scheme : Scheme) (start : Word) (n : Nat) (orders : Nat → VisitOrder)
    {k : Nat} {row : Row} (hrow : (report scheme start n orders)[k]? = some row)
    (hstill : row.replaced = 0) :
    (∀ m, k ≤ m → (scheme.expand start m).value = (scheme.expand start k).value) ∧
    (∀ n' orders' m later, k ≤ m → (report scheme start n' orders')[m]? = some later →
      later.length = row.length ∧ later.replaced = 0 ∧ later.kept = row.kept) ∧
    ∀ limit m,
      (∀ e, (scheme.expandWithin limit start m).outcome = .error e →
        ∃ generation ≤ k, ∃ length, e = .overLimit generation length limit) ∧
      (k ≤ m → (scheme.expandWithin limit start m).outcome =
        (scheme.expandWithin limit start k).outcome) := by
  obtain rfl := eq_ofWord_of_report_getElem? hrow
  rw [expand_value] at *
  -- a row without replaced symbols says that no symbol of its word has a rule
  have hnone : ∀ s ∈ scheme.derive k start, scheme.replaces s = false :=
    (Row.replaced_ofWord_eq_zero_iff ..).1 hstill
  have hnext := next_eq_self hnone
  refine ⟨fun m hm => ?_, fun n' orders' m later hm hlater => ?_, fun limit m => ?_⟩
  · rw [expand_value, derive_eq_of_standstill hnext hm]
  · -- the later row counts the same word
    obtain rfl := eq_ofWord_of_report_getElem? hlater
    rw [expand_value, derive_eq_of_standstill hnext hm]
    exact ⟨rfl, hstill, rfl⟩
  · exact expandWithin_of_standstill hnext limit m

/-- Letters that turn into a letter without a production, and a production for a mark. -/
def settling : Scheme := (empty.set 'A' "+B".toList).set '+' "AA".toList

/-- After one generation nothing is left to be replaced, and the marks stay as they are. -/
theorem stands_still_settling :
    (report settling "A-A".toList 3 fun _ => .ascending)[1]? = some ⟨1, 5, 0, 5⟩ ∧
      (⟨1, 5, 0, 5⟩ : Row).replaced = 0 ∧
      (∀ m, 1 ≤ m → (settling.expand "A-A".toList m).value = "+B-+B".toList) ∧
      (∀ m, 1 ≤ m → (settling.expandWithin 5 "A-A".toList m).outcome = .ok "+B-+B".toList) ∧
      ∀ m e, (settling.expandWithin 4 "A-A".toList m).outcome = .error e →
        ∃ generation ≤ 1, ∃ length, e = .overLimit generation length 4 := by
  have hrow : (report settling "A-A".toList 3 fun _ => .ascending)[1]? = some ⟨1, 5, 0, 5⟩ := by
    decide
  obtain ⟨hwords, -, hlimits⟩ := settling.stands_still "A-A".toList 3 (fun _ => .ascending) hrow rfl
  have hword : (settling.expand "A-A".toList 1).value = "+B-+B".toList := by decide
  have hfive : (settling.expandWithin 5 "A-A".toList 1).outcome = .ok "+B-+B".toList := by decide
  refine ⟨hrow, rfl, fun m hm => ?_, fun m hm => ?_, fun m e he => ?_⟩
  · rw [hwords m hm, hword]
  · rw [(hlimits 5 m).2 hm, hfive]
  · exact (hlimits 4 m).1 e he

end Scheme

end D0L
