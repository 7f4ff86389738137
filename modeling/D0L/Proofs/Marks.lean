import D0L.Proofs.Tally

namespace D0L

/-!
# Marks stay

Marks are copied into every generation.  The letters between them may vanish or turn into words with
marks of their own, so the marks of one generation need not stand side by side in a later one; but
they are all there, in the same order.

* `Word.marks` — the marks of a word.
* `Scheme.marks_next`, `Scheme.marks_derive` — the marks of a word are among those of its next
  generation, and of any later one.
* `Scheme.keeps_marks` — so they are in an expansion, and no count of a mark ever goes down.
-/

/-- The marks of a word, in order. -/
def Word.marks (w : Word) : Word := w.filter fun s => !s.isLetter

namespace Word

/-- The marks of a word are those of its parts. -/
@[simp] theorem marks_append (u v : Word) : marks (u ++ v) = marks u ++ marks v :=
  List.filter_append ..

/-- A letter leaves no mark. -/
theorem marks_letter {s : Symbol} (h : s.isLetter = true) : marks [s] = [] := by
  simp [marks, h]

/-- A mark stands among the marks of a word as often as it stands in the word. -/
theorem count_marks {s : Symbol} (h : s.isLetter = false) (w : Word) :
    (marks w).count s = w.count s :=
  List.count_filter (by simp [h])

end Word

namespace Scheme

variable (scheme : Scheme)

/-! ### Generations -/

/-- A mark is its own image, also if the scheme gives a successor to it. -/
theorem image_mark {s : Symbol} (h : s.isLetter = false) : scheme.image s = [s] := by
  simp [image, h]

/-- What a symbol turns into has its mark, if it is one. -/
theorem marks_image (s : Symbol) : (Word.marks [s]).Sublist (Word.marks (scheme.image s)) := by
  cases h : s.isLetter with
  | false => rw [scheme.image_mark h]
  | true => simp [Word.marks_letter h]

/-- **One generation.**  The marks of a word are among those of the next generation. -/
theorem marks_next (w : Word) : (Word.marks w).Sublist (Word.marks (scheme.next w)) := by
  induction w with
  | nil => simp
  | cons s w ih =>
    -- the images of the symbols stand behind one another as the symbols do
    rw [next_cons, ← List.singleton_append, Word.marks_append, Word.marks_append]
    exact (scheme.marks_image s).append ih

/-- **Any number of generations.** -/
theorem marks_derive (n : Nat) (w : Word) :
    (Word.marks w).Sublist (Word.marks (scheme.derive n w)) := by
  induction n generalizing w with
  | zero => simp
  | succ n ih => exact (scheme.marks_next w).trans (ih (scheme.next w))

/-- A mark never gets rarer. -/
theorem count_le_count_derive {s : Symbol} (h : s.isLetter = false) (n : Nat) (w : Word) :
    w.count s ≤ (scheme.derive n w).count s := by
  rw [← Word.count_marks h w, ← Word.count_marks h (scheme.derive n w)]
  exact (scheme.marks_derive n w).count_le s

end Scheme

/-! ### Counts -/

/-- No count of a mark goes down, whether it has stopped or not. -/
theorem Census.Tallies.get_mono {c d : Census} {v w : Word} (hc : c.Tallies v.count)
    (hd : d.Tallies w.count) {s : Symbol} (h : v.count s ≤ w.count s) : c.get s ≤ d.get s := by
  rw [hc.get, hd.get]
  omega

/-- **No mark is lost.**  The marks of a generation stand in every later one, in the same order,
    whatever else comes between them, and also if the scheme has productions for them.  So no count
    of a mark goes down, neither in the next census nor in any later one, whatever the orders of the
    visits. -/
theorem Scheme.keeps_marks (scheme : Scheme) (start : Word) {m n : Nat} (h : m ≤ n) :
    (Word.marks (scheme.expand start m).value).Sublist
      (Word.marks (scheme.expand start n).value) ∧
    ∀ s : Symbol, s.isLetter = false → ∀ (orders orders' : Nat → VisitOrder) (order : VisitOrder),
      ((Census.ofWord start).after scheme m orders).get s ≤
        (((Census.ofWord start).after scheme m orders).next scheme order).get s ∧
      ((Census.ofWord start).after scheme m orders).get s ≤
        ((Census.ofWord start).after scheme n orders').get s := by
  -- the later generation is derived from the earlier one
  obtain ⟨d, rfl⟩ := Nat.exists_eq_add_of_le h
  simp only [Scheme.expand_value, Scheme.derive_add]
  refine ⟨scheme.marks_derive d _, fun s hs orders orders' order => ?_⟩
  have hfirst := (Census.tallies_ofWord start).after scheme m orders
  have hlater := (Census.tallies_ofWord start).after scheme (m + d) orders'
  rw [Scheme.derive_add] at hlater
  constructor
  · exact hfirst.get_mono (hfirst.next scheme order) (scheme.count_le_count_derive hs 1 _)
  · exact hfirst.get_mono hlater (scheme.count_le_count_derive hs d _)

/-- Letters that vanish or grow marks, and a production for a mark. -/
def pruning : Scheme :=
  ((Scheme.empty.set 'A' "[A-]".toList).set 'B' []).set '[' "B".toList

/-- A rule for a mark is not used, and the letters around the marks come and go. -/
theorem Scheme.keeps_marks_pruning :
    1 ≤ 2 ∧ Symbol.isLetter '-' = false ∧
      (Word.marks "[+[A-]-]".toList).Sublist (Word.marks "[+[[A-]-]-]".toList) ∧
      ((Census.ofWord "[B+A-B]".toList).after pruning 1).get '-' ≤
        ((Census.ofWord "[B+A-B]".toList).after pruning 2).get '-' := by
  have hmark : Symbol.isLetter '-' = false := by decide
  obtain ⟨hmarks, hcounts⟩ := pruning.keeps_marks "[B+A-B]".toList (show 1 ≤ 2 by decide)
  have hfirst : (pruning.expand "[B+A-B]".toList 1).value = "[+[A-]-]".toList := by decide
  have hsecond : (pruning.expand "[B+A-B]".toList 2).value = "[+[[A-]-]-]".toList := by decide
  rw [hfirst, hsecond] at hmarks
  exact ⟨by decide, hmark, hmarks, (hcounts '-' hmark _ _ .ascending).2⟩

end D0L
