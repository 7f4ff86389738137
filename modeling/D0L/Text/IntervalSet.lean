namespace D0L

/-!
# Sets of numbers given by intervals

A character class is a few hundred closed intervals of code points.

* `Separated l` — the intervals of `l` ascend, none is empty and none touches the next.
* `IntervalSet` — a separated list of intervals.
* `IntervalSet.contains` — membership; the search ends at the first interval that reaches far
  enough up, so small numbers are found fast.
* `IntervalSet.runs` — the maximal runs of members inside a range.
-/

/-- The intervals ascend, none is empty, and at least one number lies between neighbours. -/
def Separated : List (Nat × Nat) → Bool
  | [] => true
  | [(low, high)] => low ≤ high
  | (low, high) :: (low', high') :: rest =>
      low ≤ high && high + 1 < low' && Separated ((low', high') :: rest)

/-- A set of natural numbers as a separated list of closed intervals. -/
structure IntervalSet where
  /-- The intervals, in ascending order. -/
  intervals : List (Nat × Nat)
  /-- The intervals ascend with gaps between them. -/
  separated : Separated intervals = true := by decide

namespace IntervalSet

/-- Whether one of the ascending intervals holds `n`. -/
def search (n : Nat) : List (Nat × Nat) → Bool
  | [] => false
  | (low, high) :: rest => if n ≤ high then low ≤ n else search n rest

/-- Whether `n` is a member. -/
def contains (s : IntervalSet) (n : Nat) : Bool := search n s.intervals

/-- The maximal runs of members between `first` and `last`, both included. -/
def runs (s : IntervalSet) (first last : Nat) : List (Nat × Nat) :=
  s.intervals.filterMap fun (low, high) =>
    if max low first ≤ min high last then some (max low first, min high last) else none

/-! ### Membership -/

/-- The first interval lies below all the others. -/
theorem lt_of_separated {a b : Nat × Nat} {rest : List (Nat × Nat)}
    (h : Separated (a :: rest) = true) (hb : b ∈ rest) : a.2 < b.1 := by
  induction rest generalizing a with
  | nil => simp at hb
  | cons c rest ih =>
    simp only [Separated, Bool.and_eq_true, decide_eq_true_eq] at h
    have hc : c.1 ≤ c.2 := by
      cases rest <;> simp_all [Separated]
    rcases List.mem_cons.1 hb with rfl | hb
    · omega
    · have := ih h.2 hb
      omega

/-- Intervals stay separated without the first of them. -/
theorem separated_tail {a : Nat × Nat} {rest : List (Nat × Nat)}
    (h : Separated (a :: rest) = true) : Separated rest = true := by
  cases rest with
  | nil => rfl
  | cons c rest => simp_all [Separated]

/-- Looking no farther than the first interval that reaches up to a number is enough, since all
    others begin above it. -/
theorem search_eq_true_iff {n : Nat} {l : List (Nat × Nat)} (h : Separated l = true) :
    search n l = true ↔ ∃ r ∈ l, r.1 ≤ n ∧ n ≤ r.2 := by
  induction l with
  | nil => simp [search]
  | cons a rest ih =>
    have hlt : ∀ b ∈ rest, a.2 < b.1 := fun b hb => lt_of_separated h hb
    simp only [search, List.mem_cons, exists_eq_or_imp]
    split
    · rename_i hn
      -- the search ends here, and all other intervals begin above
      constructor
      · intro hlow
        exact .inl ⟨by simpa using hlow, hn⟩
      · rintro (hlow | ⟨b, hb, hlow, -⟩)
        · simpa using hlow.1
        · have := hlt b hb
          omega
    · rename_i hn
      rw [ih (separated_tail h)]
      constructor
      · exact .inr
      · rintro (hin | hin)
        · omega
        · exact hin

/-- The search finds exactly the numbers that some interval holds. -/
theorem contains_eq_true_iff (s : IntervalSet) (n : Nat) :
    s.contains n = true ↔ ∃ r ∈ s.intervals, r.1 ≤ n ∧ n ≤ r.2 :=
  search_eq_true_iff s.separated

end IntervalSet

end D0L
