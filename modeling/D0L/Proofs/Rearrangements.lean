import D0L.Proofs.LengthLimit
import D0L.Proofs.ReportRows

namespace D0L

/-!
# Order does not count

What is counted of a generation is how often each symbol occurs in it.  So nothing that is counted
changes if the start word is put into another order, and the successors as well, each of them for
itself: the generations have the same symbols as often, if not in the same places.

* `Scheme.Rearranges` — two schemes whose successors have the same symbols.
* `Scheme.Rearranges.next_perm`, `Scheme.Rearranges.derive_perm` — one generation, and any number of
  them.
* `Scheme.expandWithin_alike` — expansions under a limit look at lengths only.
* `Scheme.counts_ignore_order` — expansions, lengths and reports.
-/

namespace Scheme

/-- Two schemes have productions for the same letters, with the same symbols in the successors but
    in any order. -/
def Rearranges (a b : Scheme) : Prop :=
  ∀ s, s.isLetter = true → Option.Rel List.Perm (a.get? s) (b.get? s)

variable {a b : Scheme} {v w : Word} {n : Nat}

/-! ### Generations -/

/-- A symbol turns into the same symbols under both schemes. -/
theorem Rearranges.image_perm (h : a.Rearranges b) (s : Symbol) :
    (a.image s).Perm (b.image s) := by
  unfold image successor
  split
  · rename_i hletter
    have hrel := h s hletter
    generalize a.get? s = x at *
    generalize b.get? s = y at *
    cases hrel with
    | some hperm => exact hperm
    | none => exact .refl [s]
  · exact .refl [s]

/-- Both schemes replace the same symbols. -/
theorem Rearranges.replaces_eq (h : a.Rearranges b) : a.replaces = b.replaces := by
  funext s
  unfold replaces
  cases hletter : s.isLetter with
  | false => rfl
  | true =>
    have hrel := h s hletter
    generalize a.get? s = x at *
    generalize b.get? s = y at *
    cases hrel with
    | some _ => rfl
    | none => rfl

/-- **One generation.** -/
theorem Rearranges.next_perm (h : a.Rearranges b) (hw : v.Perm w) :
    (a.next v).Perm (b.next w) :=
  hw.flatMap fun s _ => h.image_perm s

/-- **Any number of generations.** -/
theorem Rearranges.derive_perm (h : a.Rearranges b) (hw : v.Perm w) (n : Nat) :
    (a.derive n v).Perm (b.derive n w) := by
  induction n generalizing v w with
  | zero => exact hw
  | succ n ih => exact ih (h.next_perm hw)

/-! ### Expansions of equal lengths -/

/-- An expansion reports nothing of its generations but their lengths. -/
theorem expand_events_alike (h : ∀ k, (a.derive k v).length = (b.derive k w).length) (n : Nat) :
    (a.expand v n).events = (b.expand w n).events := by
  rw [expand_events, expand_events]
  apply List.map_congr_left
  intro k _
  rw [expand_value, expand_value, h]

/-- What an expansion under a limit does depends on the lengths of the generations only. -/
theorem expandWithin_alike (h : ∀ k, (a.derive k v).length = (b.derive k w).length)
    (limit n : Nat) :
    ((a.expandWithin limit v n).outcome = .ok (a.expand v n).value ∧
        (b.expandWithin limit w n).outcome = .ok (b.expand w n).value ∨
      ∃ e, (a.expandWithin limit v n).outcome = .error e ∧
        (b.expandWithin limit w n).outcome = .error e) ∧
    (a.expandWithin limit v n).events = (b.expandWithin limit w n).events := by
  -- the limit looks at lengths only
  have hcounted (k : Nat) : countedLength (b.derive k w) = countedLength (a.derive k v) := by
    unfold countedLength
    rw [h]
  obtain hwithin | ⟨k, hk, hbefore, hover⟩ := a.within_or_first_overlong limit v n
  · have hwithin' : ∀ k ≤ n, countedLength (b.derive k w) ≤ limit := by
      simpa only [hcounted] using hwithin
    rw [expandWithin_of_le hwithin, expandWithin_of_le hwithin', Attempt.events_lift,
      Attempt.events_lift]
    exact ⟨.inl ⟨rfl, rfl⟩, expand_events_alike h n⟩
  · -- both are broken off before the same generation
    have hbefore' : ∀ j < k, countedLength (b.derive j w) ≤ limit := by
      simpa only [hcounted] using hbefore
    have hover' : limit < countedLength (b.derive k w) := by rwa [hcounted]
    rw [expandWithin_of_lt hk hbefore hover, expandWithin_of_lt hk hbefore' hover', hcounted,
      Attempt.events_lift_bind, Attempt.events_lift_bind, expand_events_alike h]
    exact ⟨.inr ⟨_, rfl, rfl⟩, rfl⟩

/-! ### Counts -/

/-- Words with the same symbols in another order have the same row. -/
theorem Rearranges.rowOfWord_eq (h : a.Rearranges b) (hw : v.Perm w) (generation : Nat) :
    Row.ofWord a generation v = Row.ofWord b generation w := by
  unfold Row.ofWord
  rw [h.replaces_eq, hw.length_eq, hw.countP_eq]

/-- **Order does not count.**  If two words have the same symbols as often, and so have the
    successors of each letter in two schemes, then they have the same reports, the same lengths are
    found by counting, and their generations have the same symbols as often.  Expansions report the
    same, and under a limit both succeed or both fail, with the same error.  Neither the orders of
    the symbols matter nor those of the visits, nor the productions for marks. -/
theorem counts_ignore_order
    (h : ∀ s, s.isLetter = true → Option.Rel List.Perm (a.get? s) (b.get? s)) (hw : v.Perm w)
    (n : Nat) :
    (∀ orders orders' : Nat → VisitOrder, report a v n orders = report b w n orders' ∧
      a.expandedLength v n orders = b.expandedLength w n orders') ∧
    (a.expand v n).value.Perm (b.expand w n).value ∧
    (a.expand v n).events = (b.expand w n).events ∧
    ∀ limit,
      ((∃ x y, (a.expandWithin limit v n).outcome = .ok x ∧
          (b.expandWithin limit w n).outcome = .ok y ∧ x.Perm y) ∨
        ∃ e, (a.expandWithin limit v n).outcome = .error e ∧
          (b.expandWithin limit w n).outcome = .error e) ∧
      (a.expandWithin limit v n).events = (b.expandWithin limit w n).events := by
  have hrearranges : a.Rearranges b := h
  have hderive (k : Nat) : (a.derive k v).Perm (b.derive k w) := hrearranges.derive_perm hw k
  have hlength (k : Nat) : (a.derive k v).length = (b.derive k w).length := (hderive k).length_eq
  have hexpand : (a.expand v n).value.Perm (b.expand w n).value := by
    rw [expand_value, expand_value]
    exact hderive n
  refine ⟨fun orders orders' => ⟨?_, ?_⟩, hexpand, expand_events_alike hlength n, fun limit => ?_⟩
  · unfold report
    rw [Survey.take_start_eq, Survey.take_start_eq]
    apply List.map_congr_left
    intro k _
    rw [expand_value, expand_value]
    exact hrearranges.rowOfWord_eq (hderive k) k
  · unfold expandedLength
    rw [Census.total_after_ofWord, Census.total_after_ofWord, hlength]
  · obtain ⟨⟨hok, hok'⟩ | herror, hevents⟩ := expandWithin_alike hlength limit n
    · exact ⟨.inl ⟨_, _, hok, hok', hexpand⟩, hevents⟩
    · exact ⟨.inr herror, hevents⟩

/-- Letters that grow branches, with a production for a mark. -/
def branching : Scheme := ((empty.set 'X' "F[+X]F".toList).set 'F' "FF".toList).set '+' "X".toList

/-- The same branches from right to left. -/
def mirrored : Scheme := (empty.set 'X' "F]X+[F".toList).set 'F' "FF".toList

/-- A plant and its mirror image: the reports are equal, and the words are not. -/
theorem counts_ignore_order_mirrored :
    (∀ s, s.isLetter = true → Option.Rel List.Perm (branching.get? s) (mirrored.get? s)) ∧
      "X+F".toList.Perm "F+X".toList ∧
      report branching "X+F".toList 2 = report mirrored "F+X".toList 2 ∧
      (branching.expand "X+F".toList 2).value.Perm (mirrored.expand "F+X".toList 2).value ∧
      (branching.expand "X+F".toList 2).value ≠ (mirrored.expand "F+X".toList 2).value ∧
      ∃ e, (branching.expandWithin 10 "X+F".toList 2).outcome = .error e ∧
        (mirrored.expandWithin 10 "F+X".toList 2).outcome = .error e := by
  have hsuccessors : ∀ s, s.isLetter = true →
      Option.Rel List.Perm (branching.get? s) (mirrored.get? s) := by
    intro s hletter
    have hmark : s ≠ '+' := Symbol.ne_of_isLetter hletter (by decide)
    simp only [branching, mirrored, get?_set, get?_empty, hmark, if_false]
    split
    · exact .some (.refl _)
    · split
      · exact .some (by decide)
      · exact .none
  have hstart : "X+F".toList.Perm "F+X".toList := by decide
  obtain ⟨hcounts, hperm, -, hwithin⟩ := counts_ignore_order hsuccessors hstart 2
  obtain ⟨⟨x, y, hok, -⟩ | herror, -⟩ := hwithin 10
  · -- under this limit the second generation is too long
    have hover : (branching.expandWithin 10 "X+F".toList 2).outcome =
        .error (.overLimit 2 18 10) := by decide
    rw [hover] at hok
    cases hok
  · exact ⟨hsuccessors, hstart, (hcounts _ _).1, hperm, by decide, herror⟩

end Scheme

end D0L
