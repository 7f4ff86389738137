import D0L.Proofs.LengthLimit
import D0L.Proofs.ReportRows

namespace D0L

/-!
# Schemes with the same effect

What a scheme does to a word depends only on the successors that it gives to the letters of the
word.  Two schemes that agree on the letters of the generations up to the last but one have the same
generations, whatever else they contain.  Only the generations of one of the two schemes have to be
looked at: those of the other turn out to be the same on the way.

* `Scheme.AgreeOn`, `Scheme.AgreeBefore` — agreement on the letters of one word, and of the
  generations before the `n`-th.
* `Scheme.derive_eq_of_agreeBefore` — the generations are the same.
* `Cursor.iterate_step_eq_of_agreeBefore`, `Cursor.iterate_stepWithin_eq_of_agreeBefore` — so are
  the walks along them, with and without a limit.
* `Scheme.same_effect_of_agreeing_letters` — expansions, lengths and reports.
-/

namespace Scheme

/-- Two schemes give the same successors to the letters of a word.  Without a production a letter is
    its own successor. -/
def AgreeOn (a b : Scheme) (w : Word) : Prop :=
  ∀ s ∈ w, s.isLetter = true → a.successor s = b.successor s

/-- Two schemes agree on all generations of the first one that come before the `n`-th. -/
def AgreeBefore (a b : Scheme) (n : Nat) (w : Word) : Prop :=
  ∀ k < n, a.AgreeOn b (a.derive k w)

variable {a b : Scheme} {w : Word} {n : Nat}

/-! ### One generation -/

/-- Marks turn into themselves under every scheme. -/
theorem image_eq_of_agree {s : Symbol} (h : s.isLetter = true → a.successor s = b.successor s) :
    a.image s = b.image s := by
  unfold image
  split
  · rename_i hletter
    exact h hletter
  · rfl

/-- A word on whose letters two schemes agree has the same next generation in both. -/
theorem AgreeOn.next_eq (h : a.AgreeOn b w) : a.next w = b.next w := by
  unfold next
  exact List.flatMap_congr fun s hs => image_eq_of_agree (h s hs)

/-! ### Any number of generations -/

/-- Agreement before the generation `n + 1` includes the word itself. -/
theorem AgreeBefore.head (h : a.AgreeBefore b (n + 1) w) : a.AgreeOn b w :=
  h 0 (Nat.succ_pos n)

/-- Agreement before the generation `n + 1` is agreement before the `n`-th one after the next word.
    -/
theorem AgreeBefore.tail (h : a.AgreeBefore b (n + 1) w) : a.AgreeBefore b n (a.next w) :=
  fun k hk => h (k + 1) (Nat.succ_lt_succ hk)

/-- Schemes that agree before one generation agree before every earlier one. -/
theorem AgreeBefore.mono {m : Nat} (h : a.AgreeBefore b n w) (hm : m ≤ n) : a.AgreeBefore b m w :=
  fun k hk => h k (Nat.lt_of_lt_of_le hk hm)

/-- **The same generations.**  Where two schemes agree on the generations of the first one, the
    second one has the same. -/
theorem derive_eq_of_agreeBefore (h : a.AgreeBefore b n w) : a.derive n w = b.derive n w := by
  induction n generalizing w with
  | zero => rfl
  | succ n ih => rw [derive_succ, derive_succ, ih h.tail, h.head.next_eq]

end Scheme

namespace Cursor

variable {a b : Scheme} {c : Cursor} {n : Nat}

/-! ### Walks -/

/-- One step of a walk, with its report, is the same in both schemes. -/
theorem step_eq_of_agreeOn (h : a.AgreeOn b c.word) : c.step a = c.step b := by
  unfold step
  rw [h.next_eq]

/-- Counting the next generation and building it lead to the same place under both schemes. -/
theorem stepWithin_eq_of_agreeOn (h : a.AgreeOn b c.word) (limit : Nat) :
    c.stepWithin a limit = c.stepWithin b limit := by
  unfold stepWithin
  rw [nextLength_eq, nextLength_eq, h.next_eq, step_eq_of_agreeOn h]

/-- So is a whole walk, since each step meets only letters on which they agree. -/
theorem iterate_step_eq_of_agreeBefore (h : a.AgreeBefore b n c.word) :
    Traced.iterate (step a) n c = Traced.iterate (step b) n c := by
  induction n generalizing c with
  | zero => rfl
  | succ n ih =>
    have hrest := ih (c := (c.step a).value) (by rw [word_step]; exact h.tail)
    have hstep := step_eq_of_agreeOn h.head
    rw [Traced.iterate_succ, Traced.iterate_succ, ← hstep]
    -- the rest of the walk starts from the place after this step, where `hrest` speaks
    apply Traced.eq_of_parts
    · rw [Traced.events_bind, Traced.events_bind, hrest]
    · rw [Traced.value_bind, Traced.value_bind, hrest]

/-- The same for a walk under a limit, which may end early. -/
theorem iterate_stepWithin_eq_of_agreeBefore (limit : Nat) (h : a.AgreeBefore b n c.word) :
    Attempt.iterate (stepWithin a limit) n c = Attempt.iterate (stepWithin b limit) n c := by
  induction n generalizing c with
  | zero => rfl
  | succ n ih =>
    have hrest := ih (c := (c.step a).value) (by rw [word_step]; exact h.tail)
    rw [Attempt.iterate_succ, Attempt.iterate_succ, ← stepWithin_eq_of_agreeOn h.head limit]
    by_cases hlength : countedLength (a.next c.word) ≤ limit
    · rw [stepWithin_of_le hlength, Attempt.lift_bind_eq, hrest, ← Attempt.lift_bind_eq]
    · -- the next generation is too long, and neither walk goes on
      rw [stepWithin_of_lt (Nat.not_le.1 hlength), Attempt.throw_bind, Attempt.throw_bind]

end Cursor

namespace Scheme

variable {a b : Scheme} {start : Word} {n : Nat}

/-! ### Expansions, lengths and reports -/

/-- Schemes that agree on all the letters that are replaced expand a word in the same way. -/
theorem expand_eq_of_agreeBefore (h : a.AgreeBefore b n start) :
    a.expand start n = b.expand start n := by
  unfold expand
  rw [Cursor.iterate_step_eq_of_agreeBefore (c := .start start) h]

/-- Under a limit they fail at the same generation, if they do. -/
theorem expandWithin_eq_of_agreeBefore (h : a.AgreeBefore b n start) (limit : Nat) :
    a.expandWithin limit start n = b.expandWithin limit start n := by
  unfold expandWithin
  rw [Cursor.iterate_stepWithin_eq_of_agreeBefore (c := .start start) limit h]

/-- Lengths are found by counting, and the entries may be visited in different orders. -/
theorem expandedLength_eq_of_agreeBefore (h : a.AgreeBefore b n start)
    (orders orders' : Nat → VisitOrder) :
    a.expandedLength start n orders = b.expandedLength start n orders' := by
  unfold expandedLength
  rw [Census.total_after_ofWord, Census.total_after_ofWord, derive_eq_of_agreeBefore h]

/-- The columns of a report that tell how long each generation is. -/
theorem report_lengths_eq_of_agreeBefore (h : a.AgreeBefore b n start)
    (orders orders' : Nat → VisitOrder) :
    (report a start n orders).map Row.length = (report b start n orders').map Row.length := by
  unfold report
  rw [Survey.take_start_eq, Survey.take_start_eq, Nat.min_self, List.map_map, List.map_map]
  apply List.map_congr_left
  intro k hk
  have hderive : a.derive k start = b.derive k start :=
    derive_eq_of_agreeBefore (h.mono (Nat.le_of_lt_succ (List.mem_range.1 hk)))
  show min (a.expand start k).value.length maxCount = min (b.expand start k).value.length maxCount
  rw [expand_value, expand_value, hderive]

/-- **Only the letters that occur matter.**  If two schemes give the same successors to the letters
    in all generations of the first one before the `n`-th, they have the same expansions, with and
    without a limit, which report the same and fail alike; and the same lengths are found by
    counting.  What the schemes contain for marks, or for letters that do not occur, does not
    matter, nor whether a letter that stays as it is has a production. -/
theorem same_effect_of_agreeing_letters {a b : Scheme} {start : Word} {n : Nat}
    (h : ∀ k < n, ∀ s ∈ (a.expand start k).value, s.isLetter = true →
      a.successor s = b.successor s) :
    a.expand start n = b.expand start n ∧
    (∀ limit, a.expandWithin limit start n = b.expandWithin limit start n) ∧
    ∀ orders orders' : Nat → VisitOrder,
      a.expandedLength start n orders = b.expandedLength start n orders' ∧
      (report a start n orders).map Row.length = (report b start n orders').map Row.length := by
  have hagree : a.AgreeBefore b n start := by
    intro k hk
    rw [← expand_value]
    exact h k hk
  exact ⟨expand_eq_of_agreeBefore hagree, expandWithin_eq_of_agreeBefore hagree,
    fun orders orders' => ⟨expandedLength_eq_of_agreeBefore hagree orders orders',
      report_lengths_eq_of_agreeBefore hagree orders orders'⟩⟩

/-- Every `A` grows a `B`. -/
def growing : Scheme := empty.set 'A' "AB".toList

/-- The same, with a production that leaves `B` as it is, one for a letter that does not occur, and
    one for a mark. -/
def overgrown : Scheme := ((growing.set 'B' ['B']).set 'Z' "ZZ".toList).set '+' []

/-- A rule for a letter that does not come up, and one for a mark, make no difference. -/
theorem same_effect_overgrown :
    (∀ k < 2, ∀ s ∈ (growing.expand "A+".toList k).value, s.isLetter = true →
      growing.successor s = overgrown.successor s) ∧
    growing ≠ overgrown ∧
    growing.expand "A+".toList 2 = overgrown.expand "A+".toList 2 ∧
    (overgrown.expand "A+".toList 2).value = "ABB+".toList := by
  -- the letters can be gone through one by one, the marks need no check
  have hletters : ∀ k < 2, (growing.expand "A+".toList k).value.all fun s =>
      !Symbol.isLetter s || growing.successor s = overgrown.successor s := by decide +kernel
  have hagree : ∀ k < 2, ∀ s ∈ (growing.expand "A+".toList k).value, s.isLetter = true →
      growing.successor s = overgrown.successor s := by
    intro k hk s hs hletter
    simpa [hletter] using List.all_eq_true.1 (hletters k hk) s hs
  have hexpand := (same_effect_of_agreeing_letters hagree).1
  refine ⟨hagree, by decide, hexpand, ?_⟩
  rw [← hexpand]
  decide

end Scheme

end D0L
