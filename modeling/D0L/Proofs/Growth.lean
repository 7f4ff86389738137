import D0L.Proofs.LastDefinitions
import D0L.Proofs.LengthLimit
import D0L.Proofs.Tally

namespace D0L

/-!
# How fast generations grow

A symbol turns into as many symbols as its image has.  The longest successor bounds this from above,
and so it bounds the lengths of all generations, with a factor for each one.  From below there is a
bound only if no letter vanishes.  Then the generations never get shorter, so that the last of them
is the only one whose length has to be known.

* `Scheme.length_derive_le` — the bound from above.
* `Scheme.grows_within_longest` — the same for expansions, and a limit that is always kept.
* `Scheme.Propagating` — no letter vanishes.
* `Scheme.Propagating.monotone_length_derive` — the bound from below.
* `Scheme.last_length_decides` — whether a limit is kept can be told without expanding.
-/

namespace Scheme

variable {scheme : Scheme}

/-! ### From above -/

/-- A symbol without production keeps its one place, so the longest successor has a symbol. -/
theorem one_le_longest (scheme : Scheme) : 1 ≤ scheme.longest :=
  scheme.isGreatest_longest.2 (.inl rfl)

/-- No successor is longer than the longest. -/
theorem length_le_longest {s : Symbol} {w : Word} (h : scheme.get? s = some w) :
    w.length ≤ scheme.longest :=
  scheme.isGreatest_longest.2 (.inr ⟨s, w, h, rfl⟩)

/-- Marks and letters without a successor count as one symbol, which is never too many. -/
theorem length_image_le (scheme : Scheme) (s : Symbol) :
    (scheme.image s).length ≤ scheme.longest := by
  obtain hsame | ⟨w, -, hget, himage⟩ := scheme.image_cases s
  · rw [hsame]
    exact scheme.one_le_longest
  · rw [himage]
    exact length_le_longest hget

/-- The length of the next generation is made up of what the single symbols turn into. -/
theorem length_next_eq (scheme : Scheme) (w : Word) :
    (scheme.next w).length = (w.map fun s => (scheme.image s).length).sum :=
  List.length_flatMap

/-- **One generation.** -/
theorem length_next_le (scheme : Scheme) (w : Word) :
    (scheme.next w).length ≤ w.length * scheme.longest := by
  have himages : ∀ n ∈ w.map fun s => (scheme.image s).length, n ≤ scheme.longest := by
    intro n hn
    obtain ⟨s, -, rfl⟩ := List.mem_map.1 hn
    exact scheme.length_image_le s
  have hsum := List.sum_le_card_nsmul _ _ himages
  rw [length_next_eq]
  simpa using hsum

/-- **Any number of generations.** -/
theorem length_derive_le (scheme : Scheme) (n : Nat) (w : Word) :
    (scheme.derive n w).length ≤ w.length * scheme.longest ^ n := by
  induction n generalizing w with
  | zero => simp
  | succ n ih =>
    calc (scheme.derive (n + 1) w).length
        ≤ (scheme.next w).length * scheme.longest ^ n := ih (scheme.next w)
      _ ≤ w.length * scheme.longest * scheme.longest ^ n :=
        Nat.mul_le_mul_right _ (scheme.length_next_le w)
      _ = w.length * scheme.longest ^ (n + 1) := by rw [Nat.mul_assoc, pow_succ']

/-- **Growth is bounded.**  From one generation to a later one a word gets at most as many times
    longer, for each generation in between, as the longest successor has symbols; a symbol that is
    its own successor counts as one.  So a limit that leaves room for `n` generations of such growth
    is kept by all of them, also where they grow and vanish in turns: an expansion under that limit
    does what a plain one does. -/
theorem grows_within_longest (scheme : Scheme) (start : Word) :
    (∀ m n, m ≤ n → (scheme.expand start n).value.length ≤
      (scheme.expand start m).value.length * scheme.longest ^ (n - m)) ∧
    ∀ n limit, start.length * scheme.longest ^ n ≤ limit →
      (scheme.expandWithin limit start n).outcome = .ok (scheme.expand start n).value ∧
      (scheme.expandWithin limit start n).events = (scheme.expand start n).events := by
  constructor
  · intro m n hmn
    obtain ⟨d, rfl⟩ := Nat.exists_eq_add_of_le hmn
    rw [expand_value, expand_value, derive_add, Nat.add_sub_cancel_left]
    exact scheme.length_derive_le d _
  · intro n limit hlimit
    -- no generation on the way is longer than the bound on the last one
    have hwithin : ∀ k ≤ n, countedLength (scheme.derive k start) ≤ limit := by
      intro k hk
      calc countedLength (scheme.derive k start)
          ≤ (scheme.derive k start).length := Nat.min_le_left _ _
        _ ≤ start.length * scheme.longest ^ k := scheme.length_derive_le k start
        _ ≤ start.length * scheme.longest ^ n :=
          Nat.mul_le_mul_left _ (Nat.pow_le_pow_right scheme.one_le_longest hk)
        _ ≤ limit := hlimit
    rw [expandWithin_of_le hwithin, Attempt.outcome_lift, Attempt.events_lift]
    exact ⟨rfl, rfl⟩

/-- A letter that turns into three others, which vanish, beside a mark. -/
theorem grows_within_longest_overshooting :
    "A+".toList.length * overshooting.longest ^ 2 ≤ 18 ∧ 1 ≤ 2 ∧
      (overshooting.expand "A+".toList 2).value.length ≤
        (overshooting.expand "A+".toList 1).value.length * overshooting.longest ^ (2 - 1) ∧
      (overshooting.expandWithin 18 "A+".toList 2).outcome = .ok ['+'] := by
  have hlimit : "A+".toList.length * overshooting.longest ^ 2 ≤ 18 := by decide
  obtain ⟨hgrowth, hwithin⟩ := overshooting.grows_within_longest "A+".toList
  exact ⟨hlimit, by decide, hgrowth 1 2 (by decide), (hwithin 2 18 hlimit).1⟩

/-! ### From below -/

/-- A scheme is propagating if it lets no letter vanish.  Its productions for marks do not
    matter. -/
def Propagating (scheme : Scheme) : Prop := ∀ s, s.isLetter = true → scheme.get? s ≠ some []

/-- If no letter is erased, every symbol turns into at least one. -/
theorem Propagating.one_le_length_image (h : scheme.Propagating) (s : Symbol) :
    1 ≤ (scheme.image s).length := by
  obtain hsame | ⟨w, hletter, hget, himage⟩ := scheme.image_cases s
  · rw [hsame, List.length_singleton]
  · have hw : w ≠ [] := by
      rintro rfl
      exact h s hletter hget
    rw [himage]
    exact List.length_pos_iff.2 hw

/-- So no generation is shorter than the one before it. -/
theorem Propagating.length_le_length_next (h : scheme.Propagating) (w : Word) :
    w.length ≤ (scheme.next w).length := by
  have himages : ∀ n ∈ w.map fun s => (scheme.image s).length, 1 ≤ n := by
    intro n hn
    obtain ⟨s, -, rfl⟩ := List.mem_map.1 hn
    exact h.one_le_length_image s
  have hsum := List.card_nsmul_le_sum _ _ himages
  rw [length_next_eq]
  simpa using hsum

/-- **Generations never get shorter.** -/
theorem Propagating.monotone_length_derive (h : scheme.Propagating) (w : Word) :
    Monotone fun n => (scheme.derive n w).length := by
  apply monotone_nat_of_le_succ
  intro n
  rw [derive_succ_eq_next]
  exact h.length_le_length_next _

/-- **The last length decides.**  If no letter vanishes, neither the lengths of the generations nor
    those found by counting ever go down.  So a limit below the greatest length that a word can be
    counted with is kept by an expansion if and only if the length of the last generation keeps it,
    which is found without expanding, whatever the orders of the visits. -/
theorem last_length_decides (scheme : Scheme)
    (h : ∀ s, s.isLetter = true → scheme.get? s ≠ some []) (start : Word) :
    (Monotone fun n => (scheme.expand start n).value.length) ∧
    (∀ m n, m ≤ n → ∀ orders orders' : Nat → VisitOrder,
      scheme.expandedLength start m orders ≤ scheme.expandedLength start n orders') ∧
    ∀ n limit, limit < Numeral.maxWord → ∀ orders : Nat → VisitOrder,
      ((∃ w, (scheme.expandWithin limit start n).outcome = .ok w) ↔
        scheme.expandedLength start n orders ≤ limit) := by
  have hpropagating : scheme.Propagating := h
  have hmono := hpropagating.monotone_length_derive start
  -- the counted length is the true one, stopped at the greatest count
  have hcounted (n : Nat) (orders : Nat → VisitOrder) :
      scheme.expandedLength start n orders = min (scheme.derive n start).length maxCount :=
    Census.total_after_ofWord ..
  refine ⟨?_, ?_, ?_⟩
  · simpa only [expand_value] using hmono
  · intro m n hmn orders orders'
    rw [hcounted, hcounted]
    exact min_le_min_right _ (hmono hmn)
  · intro n limit hlimit orders
    have hgreatest : Numeral.maxWord ≤ maxCount := by decide
    rw [expandWithin_ok_iff, hcounted]
    constructor
    · intro hwithin
      -- a limit below the greatest word tells a length from one that has stopped
      have hlast : min (scheme.derive n start).length Numeral.maxWord ≤ limit :=
        hwithin n (Nat.le_refl n)
      omega
    · intro hlast k hk
      -- earlier generations are no longer than the last one
      have hle : (scheme.derive k start).length ≤ (scheme.derive n start).length := hmono hk
      show min (scheme.derive k start).length Numeral.maxWord ≤ limit
      omega

/-- Where letters vanish, a generation that is too long can have an empty one behind it. -/
example : overshooting.expandedLength ['A'] 2 = 0 ∧
    (overshooting.expandWithin 2 ['A'] 2).outcome = .error (.overLimit 1 3 2) := by decide

/-- The growth of algae, with a production that would erase a mark. -/
def erasingMark : Scheme := ((empty.set 'A' "AB".toList).set 'B' ['A']).set '+' []

/-- A rule that would erase a mark is no hindrance, since marks are never replaced. -/
theorem last_length_decides_erasingMark :
    (∀ s, s.isLetter = true → erasingMark.get? s ≠ some []) ∧ 9 < Numeral.maxWord ∧
      erasingMark.expandedLength "A+".toList 4 = 9 ∧
      (¬ ∃ w, (erasingMark.expandWithin 8 "A+".toList 4).outcome = .ok w) ∧
      ∃ w, (erasingMark.expandWithin 9 "A+".toList 4).outcome = .ok w := by
  have hletters : ∀ s, s.isLetter = true → erasingMark.get? s ≠ some [] := by
    intro s hletter
    -- the only symbol that is erased is a mark
    have hmark : s ≠ '+' := Symbol.ne_of_isLetter hletter (by decide)
    simp [erasingMark, hmark, ite_eq_iff]
  have hlimit : 9 < Numeral.maxWord := by decide
  have hlength : erasingMark.expandedLength "A+".toList 4 = 9 := by decide
  obtain ⟨-, -, hdecides⟩ := last_length_decides erasingMark hletters "A+".toList
  refine ⟨hletters, hlimit, hlength, ?_, ?_⟩
  · rw [hdecides 4 8 (by decide) fun _ => .ascending, hlength]
    decide
  · rw [hdecides 4 9 hlimit fun _ => .ascending, hlength]

end Scheme

end D0L
