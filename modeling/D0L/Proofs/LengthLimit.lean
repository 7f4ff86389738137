import D0L.Derivation

namespace D0L

/-!
# Expansion under a limit

Under a limit a generation is counted before it is built, and one that is too long ends the
expansion.  Counting and building go through the word separately; this file proves that they agree
in every generation.

* `Cursor.stepWithin_of_le`, `Cursor.stepWithin_of_lt` — what one step does.
* `Cursor.iterate_stepWithin_add` — what a run does as long as the generations are short enough.
* `Cursor.iterate_stepWithin_of_le`, `Cursor.iterate_stepWithin_of_lt` — a whole run: it is a plain
  walk, or one that is broken off before the first generation that is too long.
* `Scheme.within_or_first_overlong` — the two cases that there are; so an expansion succeeds if and
  only if no generation is too long (`Scheme.expandWithin_ok_iff`).
* `Scheme.expandWithin_stops_at_first_overlong` — the expansion succeeds when no generation is too
  long, and otherwise names the first one that is.
-/

namespace Cursor

variable {scheme : Scheme} {limit : Nat}

/-! ### One step -/

/-- A step to a generation that is short enough is a plain step. -/
theorem stepWithin_of_le {c : Cursor} (h : countedLength (scheme.next c.word) ≤ limit) :
    c.stepWithin scheme limit = ExceptT.lift (c.step scheme) := by
  unfold stepWithin
  rw [nextLength_eq, if_neg (Nat.not_lt.2 h)]

/-- A step to a generation that is too long fails, and reports nothing. -/
theorem stepWithin_of_lt {c : Cursor} (h : limit < countedLength (scheme.next c.word)) :
    c.stepWithin scheme limit =
      throw (.overLimit (c.generation + 1) (countedLength (scheme.next c.word)) limit) := by
  unfold stepWithin
  rw [nextLength_eq, if_pos h]

/-! ### Runs -/

/-- **A run starts as a plain walk.**  As long as the generations are short enough, a run takes
    plain steps; what it does further on depends only on the place where it then is. -/
theorem iterate_stepWithin_add {k : Nat} {c : Cursor}
    (h : ∀ j < k, countedLength (scheme.derive (j + 1) c.word) ≤ limit) (m : Nat) :
    Attempt.iterate (stepWithin scheme limit) (k + m) c =
      ExceptT.lift (Traced.iterate (step scheme) k c) >>=
        Attempt.iterate (stepWithin scheme limit) m := by
  induction k generalizing c with
  | zero =>
    rw [Nat.zero_add]
    rfl
  | succ k ih =>
    have hfirst : countedLength (scheme.next c.word) ≤ limit := h 0 (Nat.succ_pos k)
    have hrest := ih (c := (c.step scheme).value) fun j hj => by
      rw [word_step]
      exact h (j + 1) (Nat.succ_lt_succ hj)
    rw [Nat.add_right_comm, Attempt.iterate_succ, stepWithin_of_le hfirst, Traced.iterate_succ]
    -- events and outcome depend on the place after the first step only, where `hrest` speaks
    apply Attempt.eq_of_parts
    · rw [Attempt.events_lift_bind, hrest, Attempt.events_lift_bind, Attempt.events_lift_bind,
        Traced.events_bind, Traced.value_bind, List.append_assoc]
    · rw [Attempt.outcome_lift_bind, hrest, Attempt.outcome_lift_bind, Attempt.outcome_lift_bind,
        Traced.value_bind]

/-- A run through generations that are short enough is a plain walk. -/
theorem iterate_stepWithin_of_le {n : Nat} {c : Cursor}
    (h : ∀ j < n, countedLength (scheme.derive (j + 1) c.word) ≤ limit) :
    Attempt.iterate (stepWithin scheme limit) n c =
      ExceptT.lift (Traced.iterate (step scheme) n c) :=
  (iterate_stepWithin_add h 0).trans (bind_pure _)

/-- A run to a generation that is too long, the first one of that kind, is a walk up to the
    generation before it and fails there, however far it was to go. -/
theorem iterate_stepWithin_of_lt {n k : Nat} {c : Cursor} (hk : k < n)
    (hbefore : ∀ j < k, countedLength (scheme.derive (j + 1) c.word) ≤ limit)
    (hover : limit < countedLength (scheme.derive (k + 1) c.word)) :
    Attempt.iterate (stepWithin scheme limit) n c =
      ExceptT.lift (Traced.iterate (step scheme) k c) >>= fun _ =>
        throw (.overLimit (c.generation + (k + 1))
          (countedLength (scheme.derive (k + 1) c.word)) limit) := by
  obtain ⟨m, rfl⟩ : ∃ m, n = k + (m + 1) := ⟨n - k - 1, by omega⟩
  -- `k` plain steps lead to the generation before, and the next step is refused
  have hword := word_iterate_step scheme k c
  have hgeneration := generation_iterate_step scheme k c
  rw [Scheme.derive_succ_eq_next, ← hword] at hover
  rw [iterate_stepWithin_add hbefore, Attempt.lift_bind_eq, Attempt.iterate_succ,
    stepWithin_of_lt hover, Attempt.throw_bind, hword, hgeneration, Scheme.derive_succ_eq_next,
    Nat.add_assoc]

end Cursor

namespace Scheme

variable {scheme : Scheme} {limit n : Nat} {start : Word}

/-! ### Whole expansions -/

/-- An expansion through generations that are short enough is a plain expansion. -/
theorem expandWithin_of_le (h : ∀ k ≤ n, countedLength (scheme.derive k start) ≤ limit) :
    scheme.expandWithin limit start n = ExceptT.lift (scheme.expand start n) := by
  have hstart : countedLength start ≤ limit := h 0 (Nat.zero_le n)
  have hrun := Cursor.iterate_stepWithin_of_le (c := .start start) fun k hk => h (k + 1) hk
  unfold expandWithin expand
  rw [if_neg (Nat.not_lt.2 hstart), hrun]
  apply Attempt.eq_of_parts
  · rw [Attempt.events_lift_bind, Attempt.events_lift, Traced.events_bind]
    rfl
  · rfl

/-- An expansion to a generation that is too long, the first one of that kind, is an expansion to
    the generation before it and fails there, however far it was to go. -/
theorem expandWithin_of_lt {k : Nat} (hk : k ≤ n)
    (hbefore : ∀ j < k, countedLength (scheme.derive j start) ≤ limit)
    (hover : limit < countedLength (scheme.derive k start)) :
    scheme.expandWithin limit start n =
      ExceptT.lift (scheme.expand start (k - 1)) >>= fun _ =>
        throw (.overLimit k (countedLength (scheme.derive k start)) limit) := by
  unfold expandWithin
  cases k with
  | zero =>
    have hstart : limit < countedLength start := hover
    rw [if_pos hstart]
    rfl
  | succ k =>
    have hstart : countedLength start ≤ limit := hbefore 0 (Nat.succ_pos k)
    have hrun := Cursor.iterate_stepWithin_of_lt (c := .start start) hk
      (fun j hj => hbefore (j + 1) (Nat.succ_lt_succ hj)) hover
    rw [if_neg (Nat.not_lt.2 hstart), hrun]
    -- the events are those of the steps before; the failure adds none
    apply Attempt.eq_of_parts
    · rw [bind_assoc, Attempt.events_lift_bind, Attempt.events_lift_bind, Nat.add_sub_cancel,
        expand, Traced.events_bind, Traced.events_pure, List.append_nil]
      rfl
    · rw [bind_assoc, Attempt.outcome_lift_bind, Attempt.outcome_lift_bind, Attempt.throw_bind]
      simp [Cursor.start]

/-- Among the generations up to the `n`-th none is too long, or there is a first one that is. -/
theorem within_or_first_overlong (scheme : Scheme) (limit : Nat) (start : Word) (n : Nat) :
    (∀ k ≤ n, countedLength (scheme.derive k start) ≤ limit) ∨
      ∃ k ≤ n, (∀ j < k, countedLength (scheme.derive j start) ≤ limit) ∧
        limit < countedLength (scheme.derive k start) := by
  by_cases h : ∀ k ≤ n, countedLength (scheme.derive k start) ≤ limit
  · exact .inl h
  · right
    have hover : ∃ k ≤ n, limit < countedLength (scheme.derive k start) := by
      simpa only [Classical.not_forall, Nat.not_le, exists_prop] using h
    obtain ⟨k, hk, hover⟩ := hover
    -- one that is too long is the first of its kind, or there is one before it
    induction k using Nat.strongRecOn with
    | ind k ih =>
      by_cases hbefore : ∀ j < k, countedLength (scheme.derive j start) ≤ limit
      · exact ⟨k, hk, hbefore, hover⟩
      · obtain ⟨j, hj, hoverj⟩ : ∃ j < k, limit < countedLength (scheme.derive j start) := by
          simpa only [Classical.not_forall, Nat.not_le, exists_prop] using hbefore
        exact ih j hj (Nat.le_trans (Nat.le_of_lt hj) hk) hoverj

/-- An expansion under a limit gives what a plain one gives, or fails because of the limit. -/
theorem expandWithin_outcome (scheme : Scheme) (limit : Nat) (start : Word) (n : Nat) :
    (scheme.expandWithin limit start n).outcome = .ok (scheme.expand start n).value ∨
      ∃ k length, (scheme.expandWithin limit start n).outcome =
        .error (.overLimit k length limit) := by
  obtain h | ⟨k, hk, hbefore, hover⟩ := within_or_first_overlong scheme limit start n
  · rw [expandWithin_of_le h]
    exact .inl rfl
  · refine .inr ⟨k, countedLength (scheme.derive k start), ?_⟩
    rw [expandWithin_of_lt hk hbefore hover]
    rfl

/-- An expansion under a limit succeeds if no generation is too long, and not otherwise. -/
theorem expandWithin_ok_iff :
    (∃ w, (scheme.expandWithin limit start n).outcome = .ok w) ↔
      ∀ k ≤ n, countedLength (scheme.derive k start) ≤ limit := by
  obtain h | ⟨k, hk, hbefore, hover⟩ := within_or_first_overlong scheme limit start n
  · rw [expandWithin_of_le h]
    exact iff_of_true ⟨_, rfl⟩ h
  · rw [expandWithin_of_lt hk hbefore hover]
    refine iff_of_false ?_ fun h => Nat.not_lt.2 (h k hk) hover
    rintro ⟨w, hw⟩
    cases hw

/-- A word that is counted as no longer than a limit below the greatest count is no longer. -/
theorem length_le_of_countedLength_le {v w : Word} (hv : countedLength v ≤ limit)
    (hw : limit < countedLength w) : v.length ≤ limit := by
  unfold countedLength at hv hw
  omega

/-- **The limit is checked in every generation, and before it is built.**  If no generation up to
    the `n`-th is counted as longer than the limit, an expansion under the limit gives what a plain
    one gives and reports what that reports.  Otherwise it names the first generation that is, with
    its counted length; the generations that it has built are those before, none of which is too
    long, and it does the same however many more generations were wanted. -/
theorem expandWithin_stops_at_first_overlong (scheme : Scheme) (limit : Nat) (start : Word)
    (n : Nat) :
    ((∀ k ≤ n, countedLength (scheme.expand start k).value ≤ limit) →
      (scheme.expandWithin limit start n).outcome = .ok (scheme.expand start n).value ∧
      (scheme.expandWithin limit start n).events = (scheme.expand start n).events ∧
      (scheme.expand start n).events = scheme.builtEvents start n) ∧
    ∀ k ≤ n, (∀ j < k, countedLength (scheme.expand start j).value ≤ limit) →
      limit < countedLength (scheme.expand start k).value →
      (scheme.expandWithin limit start n).outcome =
        .error (.overLimit k (countedLength (scheme.expand start k).value) limit) ∧
      (scheme.expandWithin limit start n).events = scheme.builtEvents start (k - 1) ∧
      (∀ j < k, (scheme.expand start j).value.length ≤ limit) ∧
      ∀ m, k ≤ m → scheme.expandWithin limit start m = scheme.expandWithin limit start n := by
  -- both halves speak of derived words only
  simp only [expand_value]
  constructor
  · intro h
    rw [expandWithin_of_le h, Attempt.outcome_lift, Attempt.events_lift, expand_value]
    exact ⟨rfl, rfl, expand_events ..⟩
  · intro k hk hbefore hover
    refine ⟨?_, ?_, ?_, ?_⟩
    · rw [expandWithin_of_lt hk hbefore hover, Attempt.outcome_lift_bind, Attempt.outcome_throw]
    · rw [expandWithin_of_lt hk hbefore hover, Attempt.events_lift_bind, Attempt.events_throw,
        List.append_nil, expand_events]
    · intro j hj
      exact length_le_of_countedLength_le (hbefore j hj) hover
    · intro m hm
      rw [expandWithin_of_lt hm hbefore hover, expandWithin_of_lt hk hbefore hover]

/-- Generations that grow before they vanish: every `A` turns into three `B`, and those into
    nothing. -/
def overshooting : Scheme := (empty.set 'A' "BBB".toList).set 'B' []

/-- Three symbols are few enough for a limit of three.  Under a limit of two the first generation
    is too long, although the second one is empty again. -/
theorem expandWithin_overshooting :
    (∀ k ≤ 2, countedLength (overshooting.expand ['A'] k).value ≤ 3) ∧
    (overshooting.expandWithin 3 ['A'] 2).outcome = .ok [] ∧
    (∀ j < 1, countedLength (overshooting.expand ['A'] j).value ≤ 2) ∧
    2 < countedLength (overshooting.expand ['A'] 1).value ∧
    (overshooting.expandWithin 2 ['A'] 2).outcome = .error (.overLimit 1 3 2) := by
  have hwithin : ∀ k ≤ 2, countedLength (overshooting.expand ['A'] k).value ≤ 3 := by decide
  have hbefore : ∀ j < 1, countedLength (overshooting.expand ['A'] j).value ≤ 2 := by decide
  have hover : 2 < countedLength (overshooting.expand ['A'] 1).value := by decide
  have hok := (expandWithin_stops_at_first_overlong overshooting 3 ['A'] 2).1 hwithin
  have herror := (expandWithin_stops_at_first_overlong overshooting 2 ['A'] 2).2 1 (by decide)
    hbefore hover
  exact ⟨hwithin, hok.1, hbefore, hover, herror.1⟩

end Scheme

end D0L
