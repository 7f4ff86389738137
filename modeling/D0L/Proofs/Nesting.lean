import D0L.Preset
import D0L.Proofs.Definitions
import Mathlib

namespace D0L

/-!
# Branches stay nested

In drawings an opening bracket starts a branch and a closing one ends it.  Brackets are marks, so
every generation copies them, and more of them come from the successors of letters.  If each of
these successors is well nested, then so is every generation of a word that is.

A beginning of a generation can end in the middle of a successor.  So the branches are counted along
the word instead, from any number of them that are open already.

* `Word.WellNested` — what is to be kept, said of the beginnings of a word.
* `Word.depthAfter` — the number of open branches behind a word; by `Word.wellNested_iff` a word is
  well nested if it can be read with none open, and leaves none open.
* `Scheme.NestsBranches` — the successors of letters are well nested.  By
  `Scheme.NestsBranches.depthAfter_derive` all generations then open and close as many branches as
  the word.
* `Scheme.keeps_nesting` — so they are well nested if the word is, as with all presets.
-/

/-- No beginning of the word closes more branches than it opens, and the whole word closes all. -/
structure Word.WellNested (w : Word) : Prop where
  /-- No branch is closed that is not open. -/
  closed_le_opened : ∀ p, p <+: w → p.count ']' ≤ p.count '['
  /-- No branch stays open. -/
  opened_eq_closed : w.count '[' = w.count ']'

/-- The number of open branches behind a symbol, with `d` of them open before it.  There is none if
    the symbol closes a branch and none is open. -/
def Symbol.depthAfter (d : Nat) (s : Symbol) : Option Nat :=
  if s = '[' then some (d + 1) else if s = ']' then d.ppred else some d

/-- The number of open branches behind a word, if it closes no branch that is not open. -/
def Word.depthAfter (d : Nat) (w : Word) : Option Nat := w.foldlM Symbol.depthAfter d

namespace Symbol

/-- A bracket opens or closes one branch, and other symbols none. -/
theorem depthAfter_eq_some_iff {d e : Nat} {s : Symbol} :
    s.depthAfter d = some e ↔ d + [s].count '[' = e + [s].count ']' := by
  unfold depthAfter
  by_cases hopening : s = '['
  · simp [hopening]
  by_cases hclosing : s = ']'
  · simp [hclosing, Nat.ppred_eq_some, eq_comm]
  · simp [hopening, hclosing]

/-- Letters are no brackets. -/
theorem depthAfter_letter {s : Symbol} (h : s.isLetter = true) (d : Nat) :
    s.depthAfter d = some d := by
  have hopening : s ≠ '[' := ne_of_isLetter h (by decide)
  have hclosing : s ≠ ']' := ne_of_isLetter h (by decide)
  rw [depthAfter, if_neg hopening, if_neg hclosing]

end Symbol

namespace Word

variable {d e : Nat} {w : Word}

@[simp] theorem depthAfter_nil (d : Nat) : depthAfter d [] = some d := rfl

/-- Branches are opened and closed from left to right. -/
@[simp] theorem depthAfter_cons (d : Nat) (s : Symbol) (w : Word) :
    depthAfter d (s :: w) = (s.depthAfter d).bind fun e => depthAfter e w :=
  List.foldlM_cons

/-- The second part of a word goes on at the depth that the first part ends at. -/
@[simp] theorem depthAfter_append (d : Nat) (u v : Word) :
    depthAfter d (u ++ v) = (depthAfter d u).bind fun e => depthAfter e v :=
  List.foldlM_append

/-- One symbol is a word of its own. -/
theorem depthAfter_singleton (d : Nat) (s : Symbol) : depthAfter d [s] = s.depthAfter d := by
  simp

/-- The beginnings of a word are the empty one and those that start with its first symbol. -/
theorem forall_isPrefix_cons {P : Word → Prop} {s : Symbol} :
    (∀ p, p <+: s :: w → P p) ↔ P [] ∧ ∀ p, p <+: w → P (s :: p) := by
  simp only [List.prefix_cons_iff]
  constructor
  · exact fun h => ⟨h [] (.inl rfl), fun p hp => h _ (.inr ⟨p, rfl, hp⟩)⟩
  · rintro ⟨hnil, hcons⟩ p (rfl | ⟨q, rfl, hq⟩)
    · exact hnil
    · exact hcons q hq

/-- **What is counted along a word.**  The count goes through if no beginning of the word closes
    more branches than were open before it or opened in it, and ends with what is left of these. -/
theorem depthAfter_eq_some_iff : depthAfter d w = some e ↔
    (∀ p, p <+: w → p.count ']' ≤ d + p.count '[') ∧ d + w.count '[' = e + w.count ']' := by
  induction w generalizing d with
  | nil => simp
  | cons s w ih =>
    -- with a symbol in front, each beginning opens and closes what the symbol does besides
    have hcount (t : Symbol) (p : Word) : (s :: p).count t = [s].count t + p.count t := by
      rw [← List.singleton_append, List.count_append]
    rw [depthAfter_cons, Option.bind_eq_some_iff, forall_isPrefix_cons, hcount '[' w, hcount ']' w]
    simp only [Symbol.depthAfter_eq_some_iff, ih]
    constructor
    · rintro ⟨m, hs, hbeginnings, htotal⟩
      refine ⟨⟨Nat.zero_le _, fun p hp => ?_⟩, by omega⟩
      have hbeginning := hbeginnings p hp
      rw [hcount '[' p, hcount ']' p]
      omega
    · rintro ⟨⟨-, hbeginnings⟩, htotal⟩
      have hs : [s].count ']' ≤ d + [s].count '[' := hbeginnings [] List.nil_prefix
      refine ⟨d + [s].count '[' - [s].count ']', by omega, fun p hp => ?_, by omega⟩
      have hbeginning := hbeginnings p hp
      rw [hcount '[' p, hcount ']' p] at hbeginning
      omega

/-- A well-nested word leaves as many branches open as there were. -/
theorem WellNested.depthAfter_eq (h : WellNested w) (d : Nat) : depthAfter d w = some d := by
  rw [depthAfter_eq_some_iff]
  refine ⟨fun p hp => ?_, congrArg (d + ·) h.opened_eq_closed⟩
  have hclosed := h.closed_le_opened p hp
  omega

/-- Well-nested words can be told by counting along them. -/
theorem wellNested_iff : WellNested w ↔ depthAfter 0 w = some 0 := by
  constructor
  · exact fun h => h.depthAfter_eq 0
  · intro h
    simp only [depthAfter_eq_some_iff, Nat.zero_add] at h
    exact ⟨h.1, h.2⟩

instance : Decidable (WellNested w) := decidable_of_iff _ wellNested_iff.symm

end Word

namespace Scheme

variable {scheme : Scheme}

/-- The successors of letters are well nested.  Of the productions for marks nothing is said. -/
def NestsBranches (scheme : Scheme) : Prop :=
  ∀ s w, s.isLetter = true → scheme.get? s = some w → w.WellNested

/-- What a symbol turns into opens and closes as many branches as the symbol. -/
theorem NestsBranches.depthAfter_image (h : scheme.NestsBranches) (d : Nat) (s : Symbol) :
    (scheme.image s).depthAfter d = s.depthAfter d := by
  obtain hsame | ⟨w, hletter, hget, himage⟩ := scheme.image_cases s
  · rw [hsame, Word.depthAfter_singleton]
  · rw [himage, Symbol.depthAfter_letter hletter]
    exact (h s w hletter hget).depthAfter_eq d

/-- **One generation.**  The next generation opens and closes as many branches as the word. -/
theorem NestsBranches.depthAfter_next (h : scheme.NestsBranches) (d : Nat) (w : Word) :
    (scheme.next w).depthAfter d = w.depthAfter d := by
  induction w generalizing d with
  | nil => rfl
  | cons s w ih =>
    -- behind the image of `s` as many are open as behind `s`, and the rest goes on from there
    rw [next_cons, Word.depthAfter_append, h.depthAfter_image, Word.depthAfter_cons]
    simp only [ih]

/-- **Any number of generations.** -/
theorem NestsBranches.depthAfter_derive (h : scheme.NestsBranches) (n d : Nat) (w : Word) :
    (scheme.derive n w).depthAfter d = w.depthAfter d := by
  induction n generalizing w with
  | zero => rfl
  | succ n ih => rw [derive_succ, ih, h.depthAfter_next]

end Scheme

/-! ### Presets -/

/-- Every successor in a preset closes the branches that it opens. -/
theorem Preset.nestsBranches (p : Preset) : p.grammar.value.scheme.NestsBranches := by
  have hproductions : ∀ q ∈ p.productions, q.successor.WellNested := by
    cases p <;> decide
  intro s w _ hget
  obtain ⟨q, hq, rfl⟩ := Scheme.exists_of_get?_collect hget
  exact hproductions q hq

/-- **No branch is torn.**  If the successors of all letters are well nested, an expansion is well
    nested if and only if the word is that it starts from, whatever the scheme has for brackets and
    other marks.  All presets are like that, those with branches and those without. -/
theorem Scheme.keeps_nesting :
    (∀ scheme : Scheme,
      (∀ s w, s.isLetter = true → scheme.get? s = some w → w.WellNested) →
      ∀ start n, (scheme.expand start n).value.WellNested ↔ start.WellNested) ∧
    ∀ (p : Preset) n, (p.grammar.value.expand n).value.WellNested := by
  have hexpand (scheme : Scheme) (h : scheme.NestsBranches) (start : Word) (n : Nat) :
      (scheme.expand start n).value.WellNested ↔ start.WellNested := by
    rw [expand_value, Word.wellNested_iff, h.depthAfter_derive, ← Word.wellNested_iff]
  refine ⟨hexpand, fun p n => (hexpand _ p.nestsBranches _ n).2 ?_⟩
  show p.start.WellNested
  cases p <;> decide

/-- Every letter `F` grows a branch.  The production for the bracket would tear it off. -/
def budding : Scheme := (Scheme.empty.set 'F' "F[+F]".toList).set '[' "]]".toList

/-- Nested successors keep a nested word nested, and do not mend another one. -/
theorem Scheme.keeps_nesting_budding :
    (∀ s w, s.isLetter = true → budding.get? s = some w → w.WellNested) ∧
      (budding.expand "[F]".toList 2).value = "[F[+F][+F[+F]]]".toList ∧
      (budding.expand "[F]".toList 2).value.WellNested ∧
      ¬ (budding.expand "F]F[".toList 2).value.WellNested := by
  have hletters : ∀ s w, s.isLetter = true → budding.get? s = some w → w.WellNested := by
    intro s w hletter hget
    have hmark : s ≠ '[' := Symbol.ne_of_isLetter hletter (by decide)
    obtain ⟨-, rfl⟩ : s = 'F' ∧ "F[+F]".toList = w := by
      simpa [budding, hmark, ite_eq_iff] using hget
    decide
  have hnested := keeps_nesting.1 budding hletters
  exact ⟨hletters, by decide, (hnested "[F]".toList 2).2 (by decide),
    fun h => absurd ((hnested "F]F[".toList 2).1 h) (by decide)⟩

end D0L
