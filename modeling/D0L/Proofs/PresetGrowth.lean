import D0L.Preset
import D0L.Proofs.Marks

namespace D0L

/-!
# Growth laws of the presets

Each generation of algae is put together from the two before it, so the lengths are the Fibonacci
numbers.  In the generations of the two curves one letter follows on the other with a sign between
them.  Counting letters and signs would not show that, so the order is carried along: what a letter
turns into alternates in the same way, and it takes up the place of one letter.

* `Word.Alternates` — a number of letters with a sign between each two of them.
* `Word.Alternates.next`, `Word.Alternates.derive` — if every letter turns into `k` letters, then so
  many times more letters stand in the next generation, and they still alternate with signs.
* `Preset.generation_algae`, `Preset.alternates_dragonCurve`, `Preset.alternates_kochCurve` — the
  laws of each preset.
* `Preset.growth_laws` — the lengths and the counts that follow from them.
-/

/-- Whether a symbol is a sign, where drawings turn. -/
def Symbol.isSign (s : Symbol) : Bool := s = '+' || s = '-'

/-- Signs are marks. -/
theorem Symbol.isLetter_of_isSign {s : Symbol} (h : s.isSign = true) : s.isLetter = false := by
  simp only [isSign, Bool.or_eq_true, decide_eq_true_eq] at h
  rcases h with rfl | rfl <;> decide

/-- The word is made up of a number of symbols that satisfy `p`, with a sign between each two
    neighbours and nothing else. -/
inductive Word.Alternates (p : Symbol → Prop) : Nat → Word → Prop
  | single {s : Symbol} (h : p s) : Alternates p 1 [s]
  | cons {s t : Symbol} {m : Nat} {w : Word} (h : p s) (hsign : t.isSign = true)
      (more : Alternates p m w) : Alternates p (m + 1) (s :: t :: w)

namespace Word.Alternates

variable {p q : Symbol → Prop} {m n k : Nat} {t : Symbol} {u v w : Word} {scheme : Scheme}

/-! ### Words -/

/-- Alternation carries over to whatever holds of more symbols. -/
theorem mono (h : Alternates p m w) (hpq : ∀ s, p s → q s) : Alternates q m w := by
  induction h with
  | single hs => exact .single (hpq _ hs)
  | cons hs hsign _ ih => exact .cons (hpq _ hs) hsign ih

/-- Two words go behind each other with a sign between them. -/
theorem append (hu : Alternates p m u) (ht : t.isSign = true) (hv : Alternates p n v) :
    Alternates p (m + n) (u ++ t :: v) := by
  induction hu with
  | single hs =>
    rw [Nat.add_comm]
    exact .cons hs ht hv
  | cons hs hsign _ ih =>
    rw [Nat.add_right_comm]
    exact .cons hs hsign ih

/-- There are as many letters as the word is said to have. -/
theorem countP_isLetter (h : Alternates (fun s => s.isLetter = true) m w) :
    w.countP Symbol.isLetter = m := by
  induction h with
  | single hs => simp [hs]
  | cons hs hsign _ ih => simp [hs, Symbol.isLetter_of_isSign hsign, ih]

/-- There is one sign less. -/
theorem countP_isSign (h : Alternates (fun s => s.isLetter = true) m w) :
    w.countP Symbol.isSign + 1 = m := by
  have hletter {s : Symbol} (hs : s.isLetter = true) : ¬ s.isSign = true := by
    intro hsign
    rw [Symbol.isLetter_of_isSign hsign] at hs
    cases hs
  induction h with
  | single hs => simp [hletter hs]
  | cons hs hsign _ ih =>
    simp only [List.countP_cons_of_neg (hletter hs), List.countP_cons_of_pos hsign]
    omega

/-! ### Generations -/

/-- **One generation.**  The signs stay, and each letter gives way to `k` others. -/
theorem next (himage : ∀ s, p s → Alternates p k (scheme.image s)) (h : Alternates p m w) :
    Alternates p (m * k) (scheme.next w) := by
  induction h with
  | single hs =>
    rw [Nat.one_mul, Scheme.next_cons, Scheme.next_nil, List.append_nil]
    exact himage _ hs
  | cons hs hsign _ ih =>
    rw [Scheme.next_cons, Scheme.next_cons, scheme.image_mark (Symbol.isLetter_of_isSign hsign),
      List.singleton_append, Nat.succ_mul, Nat.add_comm]
    exact (himage _ hs).append hsign ih

/-- **Any number of generations.** -/
theorem derive (himage : ∀ s, p s → Alternates p k (scheme.image s)) (h : Alternates p m w)
    (n : Nat) : Alternates p (m * k ^ n) (scheme.derive n w) := by
  induction n generalizing m w with
  | zero =>
    rw [Nat.pow_zero, Nat.mul_one]
    exact h
  | succ n ih =>
    rw [Nat.pow_succ', ← Nat.mul_assoc]
    exact ih (h.next himage)

end Word.Alternates

namespace Preset

open Word (Alternates)

/-- A generation of a preset. -/
def generation (p : Preset) (n : Nat) : Word := (p.grammar.value.expand n).value

/-- The generations of a preset are derived from its start word by its scheme. -/
theorem generation_eq (p : Preset) (n : Nat) :
    p.generation n = p.grammar.value.scheme.derive n p.start :=
  Scheme.expand_value ..

/-! ### Algae -/

/-- **A generation of algae is the last one with the last but one behind it.** -/
theorem generation_algae (n : Nat) :
    algae.generation (n + 2) = algae.generation (n + 1) ++ algae.generation n := by
  have hA : algae.grammar.value.scheme.next ['A'] = ['A'] ++ ['B'] := by decide
  have hB : algae.grammar.value.scheme.next ['B'] = ['A'] := by decide
  have hstart : algae.start = ['A'] := rfl
  simp only [generation_eq, hstart]
  -- `B` comes one generation later than `A`, and then does the same
  rw [Scheme.derive_succ, hA, Scheme.derive_append, Scheme.derive_succ _ n ['B'], hB]

/-- **Algae grow by the Fibonacci numbers.**  Two generations in a row make the next one, one behind
    the other. -/
theorem length_generation_algae (n : Nat) :
    (algae.generation n).length = Nat.fib (n + 2) := by
  induction n using Nat.twoStepInduction with
  | zero => rfl
  | one => decide
  | more n ih ih' =>
    rw [generation_algae, List.length_append, ih, ih', Nat.fib_add_two (n := n + 2), Nat.add_comm]

/-- The length of a generation is found by counting, too, whatever the orders of the visits. -/
theorem expandedLength_algae (n : Nat) (orders : Nat → VisitOrder) :
    algae.grammar.value.scheme.expandedLength algae.grammar.value.start n orders
      = min (Nat.fib (n + 2)) maxCount := by
  have hcounted := Census.total_after_ofWord algae.grammar.value.scheme n algae.start orders
    (orders n)
  rw [← generation_eq, length_generation_algae] at hcounted
  exact hcounted

/-! ### Curves -/

/-- A curve starts with one letter.  If all letters that come from it turn into `k` of them, there
    are `k` times more letters in each generation than in the one before. -/
theorem alternates_generation {curve : Preset} {p : Symbol → Prop} {k : Nat}
    (hletter : ∀ s, p s → s.isLetter = true)
    (himage : ∀ s, p s → Alternates p k (curve.grammar.value.scheme.image s))
    (hstart : Alternates p 1 curve.start) (n : Nat) :
    Alternates (fun s => s.isLetter = true) (k ^ n) (curve.generation n) := by
  have hderive := hstart.derive himage n
  rw [Nat.one_mul, ← generation_eq] at hderive
  exact hderive.mono hletter

/-- **The dragon curve.**  Both of its letters turn into both, with a sign between them. -/
theorem alternates_dragonCurve (n : Nat) :
    Alternates (fun s => s.isLetter = true) (2 ^ n) (dragonCurve.generation n) := by
  apply alternates_generation (p := fun s => s = 'F' ∨ s = 'G')
  · rintro s (rfl | rfl)
    · decide
    · decide
  · rintro s (rfl | rfl)
    · have hF : dragonCurve.grammar.value.scheme.image 'F' = ['F', '+', 'G'] := by decide
      rw [hF]
      exact .cons (.inl rfl) (by decide) (.single (.inr rfl))
    · have hG : dragonCurve.grammar.value.scheme.image 'G' = ['F', '-', 'G'] := by decide
      rw [hG]
      exact .cons (.inl rfl) (by decide) (.single (.inr rfl))
  · exact .single (.inl rfl)

/-- **The Koch curve.**  Its letter turns into five, with four signs between them. -/
theorem alternates_kochCurve (n : Nat) :
    Alternates (fun s => s.isLetter = true) (5 ^ n) (kochCurve.generation n) := by
  apply alternates_generation (p := fun s => s = 'F')
  · rintro s rfl
    decide
  · rintro s rfl
    have hF : kochCurve.grammar.value.scheme.image 'F'
        = ['F', '+', 'F', '-', 'F', '-', 'F', '+', 'F'] := by decide
    rw [hF]
    exact .cons rfl (by decide) (.cons rfl (by decide) (.cons rfl (by decide)
      (.cons rfl (by decide) (.single rfl))))
  · exact .single rfl

/-- **The presets grow by laws.**  A generation of algae is the last one with the last but one
    behind it, so its length, and what is found by counting, is a Fibonacci number.  The dragon
    curve has two times more letters in each generation, and the Koch curve five times more; in both
    of them the letters alternate with signs, so there is one sign less, and nothing else. -/
theorem growth_laws (n : Nat) :
    (algae.generation (n + 2) = algae.generation (n + 1) ++ algae.generation n ∧
      (algae.generation n).length = Nat.fib (n + 2) ∧
      ∀ orders, algae.grammar.value.scheme.expandedLength algae.grammar.value.start n orders
        = min (Nat.fib (n + 2)) maxCount) ∧
    ((dragonCurve.generation n).countP Symbol.isLetter = 2 ^ n ∧
      (dragonCurve.generation n).countP Symbol.isSign = 2 ^ n - 1 ∧
      Alternates (fun s => s.isLetter = true) (2 ^ n) (dragonCurve.generation n)) ∧
    ((kochCurve.generation n).countP Symbol.isLetter = 5 ^ n ∧
      (kochCurve.generation n).countP Symbol.isSign = 5 ^ n - 1 ∧
      Alternates (fun s => s.isLetter = true) (5 ^ n) (kochCurve.generation n)) := by
  -- the counts follow from the alternation, which holds signs and letters apart
  have hdragon := alternates_dragonCurve n
  have hkoch := alternates_kochCurve n
  refine ⟨⟨generation_algae n, length_generation_algae n, expandedLength_algae n⟩,
    ⟨hdragon.countP_isLetter, ?_, hdragon⟩, ⟨hkoch.countP_isLetter, ?_, hkoch⟩⟩
  · exact Nat.eq_sub_of_add_eq hdragon.countP_isSign
  · exact Nat.eq_sub_of_add_eq hkoch.countP_isSign

end Preset

end D0L
